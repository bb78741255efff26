import SqlSnippet.Command.Grammar
import SqlSnippet.Number.Whole

/-!
# Marked arguments

What an argument is can be told from the argument alone: `Grammar.mark` finds the option that it
means, by a name or by the start of one that no other name of two dashes shares. A text may stand
with an option in one argument, after an equals sign or right after a name of one character. After
an argument of two dashes all the others are operands.
-/

namespace SqlSnippet

/-- What an argument is by itself. An option may come with a text in the same argument. -/
inductive Mark where
  | operand
  | separator
  | option (o : OptionSpec) (name : Text)
  | joined (o : OptionSpec) (name text : Text)
  | unknown
  deriving DecidableEq, Repr

/-- Whether an argument is no option, with a value or without. -/
def Mark.isOperand : Mark → Bool
  | .operand => true
  | .separator => true
  | _ => false

/-- Drop the digits at the start of a text. -/
def dropDigits (s : Text) : Text :=
  s.dropWhile fun c => (digitValue? c).isSome

/-- Whether a text is empty but for a line feed. -/
def isLineEnd (s : Text) : Bool :=
  s == [] || s == ['\n']

/-- Whether an argument reads as a negative number, in digits and perhaps with a point. -/
def isNegativeNumber : Text → Bool
  | '-' :: r =>
    match dropDigits r with
    | '.' :: f => (dropDigits f).length < f.length && isLineEnd (dropDigits f)
    | e => e.length < r.length && isLineEnd e
  | _ => false

namespace Grammar

/-- The names of options with their options, in order. -/
def names (g : Grammar) : List (Text × OptionSpec) :=
  g.options.flatMap fun o => o.names.map (·, o)

/-- The option of a name. -/
def option? (g : Grammar) (name : Text) : Option OptionSpec :=
  g.names.lookup name

/-- The options that an argument may mean that is no name: those with a name of two dashes that
starts with it, as far as an equals sign, or the one with its first character for a name. -/
def candidates (g : Grammar) (arg : Text) : List (Text × Mark) :=
  match arg with
  | '-' :: '-' :: _ =>
    let start := arg.takeWhile (· != '=')
    (g.names.filter fun (name, _) => start.isPrefixOf name).map fun (name, o) =>
      match arg.dropWhile (· != '=') with
      | [] => (name, .option o name)
      | _ :: text => (name, .joined o name text)
  | '-' :: c :: text =>
    (g.names.filter fun (name, _) => name = ['-', c]).map fun (name, o) =>
      (name, .joined o name text)
  | _ => []

/-- The mark of an argument that is neither a name nor a name with a value after an equals
sign. -/
def markUnnamed (g : Grammar) (arg : Text) : Except Halt Mark :=
  match g.candidates arg with
  | [(_, m)] => .ok m
  | [] => .ok (if isNegativeNumber arg || ' ' ∈ arg then .operand else .unknown)
  | several => .error <| .refused g <|
    "ambiguous option: " ++ String.ofList arg ++ " could match " ++
      ", ".intercalate (several.map fun (name, _) => String.ofList name)

/-- The mark of an argument. -/
def mark (g : Grammar) (arg : Text) : Except Halt Mark :=
  if arg.head? ≠ some '-' then .ok .operand
  else match g.option? arg with
    | some o => .ok (.option o arg)
    | none =>
      if arg = ['-'] then .ok .operand
      else
        let name := arg.takeWhile (· != '=')
        match arg.dropWhile (· != '='), g.option? name with
        | _ :: text, some o => .ok (.joined o name text)
        | _, _ => g.markUnnamed arg

/-- The arguments with their marks. -/
def markAll (g : Grammar) : List Text → Except Halt (List (Text × Mark))
  | [] => .ok []
  | arg :: args =>
    if arg = ['-', '-'] then .ok ((arg, .separator) :: args.map (·, .operand))
    else do
      let m ← g.mark arg
      return (arg, m) :: (← g.markAll args)

end Grammar

end SqlSnippet
