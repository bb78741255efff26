import SqlSnippet.Command.Arguments
import SqlSnippet.Command.Manual

/-!
# Invocations

An invocation says which command the program is to carry out, and with what. The program's own
options come first; the first operand names the command, and everything after it belongs to that
command. An argument that nobody knows is refused only after all others are read.
-/

namespace SqlSnippet

/-- What the layout of a file is made for: to print it, to tell whether it differs from the file,
or to replace the file. -/
inductive LayoutMode where
  | print
  | check
  | write
  deriving DecidableEq, Repr

/-- A command and what it is given. The width of an indent may be asked for without one. -/
inductive Command where
  | highlight (paths : List Text) (isWrapped : Bool) (output : Option Text)
  | format (paths : List Text) (mode : LayoutMode) (indent : Option (Option Text))
      (splitStatements : Bool)
  | tokens (path : Text) (asJson : Bool)
  | serve
  deriving DecidableEq, Repr

/-- What the program is called for. -/
structure Invocation where
  config : Option Text
  workspace : Option Text
  isVerbose : Bool
  logLevel : Option Text
  command : Command
  deriving DecidableEq, Repr

/-- A text that is given and not empty. -/
def filled? (s : Option Text) : Option Text :=
  s.filter (!·.isEmpty)

namespace Command

/-- What the layout is made for. -/
def layoutMode (a : Arguments) : LayoutMode :=
  if a.has "--check" then .check else if a.has "--write" then .write else .print

/-- Read the name of a command and its arguments, some of which may be left over. -/
def read (name : Text) (args : List Text) : Except Halt (Command × List Text) :=
  match String.ofList name with
  | "highlight" => do
    let a ← Manual.highlight.read args
    return (.highlight a.operands (a.has "--wrap") (filled? (a.value? "--output")), a.extras)
  | "format" => do
    let a ← Manual.format.read args
    let indent := if a.has "--indent" then some (a.value? "--indent") else none
    return (.format a.operands (layoutMode a) indent (a.has "--split-statements"), a.extras)
  | "tokens" => do
    let a ← Manual.tokens.read args
    return (.tokens (a.operands.headD []) (a.has "--json"), a.extras)
  | "lsp" => do
    let a ← Manual.lsp.read args
    return (.serve, a.extras)
  | _ => .error <| .refused Manual.program <|
    "argument command: " ++ invalidChoice name Manual.commandNames

end Command

namespace Invocation

/-- Refuse arguments that are left over. -/
def refuseExtras (extras : List Text) : Except Halt Unit :=
  if extras.isEmpty then .ok ()
  else .error <| .refused Manual.program <|
    "unrecognized arguments: " ++ " ".intercalate (extras.map String.ofList)

/-- Read the arguments of the program; there is no invocation if they name no command. -/
def read (args : List Text) : Except Halt (Option Invocation) := do
  let a ← Manual.program.read args
  match a.operands with
  | [] =>
    refuseExtras a.extras
    return none
  | name :: args =>
    let (command, extras) ← Command.read name args
    refuseExtras (a.extras ++ extras)
    return some {
      config := filled? (a.value? "--config")
      workspace := filled? (a.value? "--workspace")
      isVerbose := a.has "--verbose"
      logLevel := a.value? "--log-level"
      command }

end Invocation

end SqlSnippet
