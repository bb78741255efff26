import SqlSnippet.Command.Mark

/-!
# Arguments of commands

`Grammar.read` takes options and operands by turns from marked arguments. The value of an option
is the text that stands with it, or else the next argument; two dashes that stand with an option
give it no value. Options of one character without values can be joined into one argument.
Operands are taken once, from arguments that stand together. What is neither option nor operand is
left over, for the caller to judge.
-/

namespace SqlSnippet

/-- What arguments say: the options in order, the operands, and what is left over. -/
structure Arguments where
  given : List Given
  operands : List Text
  extras : List Text
  deriving DecidableEq, Repr

namespace Grammar

/-! ## Options -/

/-- Options that stand in one argument, and the arguments after it. -/
structure Taken where
  given : List Given
  rest : List (Text × Mark)

/-- Take an option that stands by itself. -/
def takeSingle (g : Grammar) (o : OptionSpec) (rest : List (Text × Mark)) : Except Halt Taken :=
  if o.hasValue then
    match rest with
    | (value, .operand) :: rest => .ok ⟨[(o, some value)], rest⟩
    | _ => .error (.refused g (o.complaint "expected one argument"))
  else .ok ⟨[(o, none)], rest⟩

/-- Take an option and what a text in the same argument says: its value, or, after a name of one
character, the names of more options and perhaps a value of the last. -/
def takeJoined (g : Grammar) (o : OptionSpec) (name text : Text) (rest : List (Text × Mark)) :
    Except Halt Taken :=
  if o.hasValue then .ok ⟨[(o, if text = ['-', '-'] then none else some text)], rest⟩
  else match text with
    | [] => .error (.refused g (o.ignoredText text))
    | c :: more =>
      if name[1]? = some '-' then .error (.refused g (o.ignoredText text))
      else match g.option? ['-', c], more with
        | none, _ => .error (.refused g (o.ignoredText text))
        | some next, [] => do
          let t ← g.takeSingle next rest
          return { t with given := (o, none) :: t.given }
        | some next, more => do
          let t ← g.takeJoined next ['-', c] more rest
          return { t with given := (o, none) :: t.given }

/-- Note an option that is given; a call for help or for the version ends the reading. -/
def note (g : Grammar) (a : Arguments) (o : OptionSpec) (value : Option Text) :
    Except Halt Arguments :=
  match o.kind, o.objection? value a.given with
  | .help, _ => .error (.help g)
  | .version, _ => .error .version
  | _, some message => .error (.refused g (o.complaint message))
  | _, none => .ok { a with given := a.given ++ [(o, value)] }

/-- Note options in order. -/
def noteAll (g : Grammar) (a : Arguments) (given : List Given) : Except Halt Arguments :=
  given.foldlM (fun a (o, value) => g.note a o value) a

/-! ## Operands -/

/-- Take operands from the start of marked arguments, unless that was done before. Two dashes
among them do not count as an operand, but in front of what `Arity.rest` takes they do. -/
def takeOperands (g : Grammar) (a : Arguments) (args : List (Text × Mark)) :
    Option (List Text × List (Text × Mark)) :=
  let run := args.takeWhile (·.2.isOperand)
  let values := (run.filter (·.2 = .operand)).map (·.1)
  match g.operand, values with
  | some spec, value :: _ =>
    if a.operands ≠ [] then none
    else match spec.arity with
      | .one =>
        let rest := args.drop (if args.head?.map (·.2) = some .separator then 2 else 1)
        some ([value], if rest.head?.map (·.2) = some .separator then rest.drop 1 else rest)
      | .several => some (values, args.drop run.length)
      | .rest => some (args.map (·.1), [])
  | _, _ => none

/-! ## Reading -/

/-- Take one option, or operands, or leave arguments over. -/
def step (g : Grammar) (a : Arguments) :
    List (Text × Mark) → Except Halt (Arguments × List (Text × Mark))
  | [] => .ok (a, [])
  | (_, .option o _) :: rest => do
    let t ← g.takeSingle o rest
    let a ← g.noteAll a t.given
    return (a, t.rest)
  | (_, .joined o name text) :: rest => do
    let t ← g.takeJoined o name text rest
    let a ← g.noteAll a t.given
    return (a, t.rest)
  | (arg, .unknown) :: rest => .ok ({ a with extras := a.extras ++ [arg] }, rest)
  | (arg, m) :: rest =>
    match g.takeOperands a ((arg, m) :: rest) with
    | some (values, rest) => .ok ({ a with operands := values }, rest)
    | none => .ok ({ a with extras := a.extras ++ [arg] }, rest)

/-- Take all arguments, of which there are at most `fuel`: each step takes one at least. -/
def readMarked (g : Grammar) : Nat → Arguments → List (Text × Mark) → Except Halt Arguments
  | _, a, [] => .ok a
  | 0, a, _ => .ok a
  | fuel + 1, a, args => do
    let (a, rest) ← g.step a args
    g.readMarked fuel a rest

/-- Read arguments. -/
def read (g : Grammar) (args : List Text) : Except Halt Arguments := do
  let marked ← g.markAll args
  let a ← g.readMarked marked.length ⟨[], [], []⟩ marked
  match g.operand with
  | some spec =>
    if spec.isRequired && a.operands.isEmpty then
      .error (.refused g ("the following arguments are required: " ++ spec.name))
    else .ok a
  | none => .ok a

end Grammar

namespace Arguments

/-- Whether an option is given. -/
def has (a : Arguments) (name : String) : Bool :=
  a.given.any fun (o, _) => name.toList ∈ o.names

/-- The value that an option is given last. -/
def value? (a : Arguments) (name : String) : Option Text :=
  (a.given.reverse.find? fun (o, _) => name.toList ∈ o.names).bind (·.2)

end Arguments

end SqlSnippet
