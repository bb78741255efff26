import SqlSnippet.Command.Run

/-!
# What an invocation looks at

A run works on a value of the files that it may look at. These are told by the invocation alone:
the operands, with everything below them, and the files of its settings and its output.
-/

namespace SqlSnippet

/-- The operands of a command. -/
def Command.operands : Command → List Text
  | .highlight paths _ _ => paths
  | .format paths _ _ _ => paths
  | .tokens path _ => [path]
  | .serve => []

/-- The file that a command writes its output to. -/
def Command.output? : Command → Option Text
  | .highlight _ _ output => output
  | _ => none

namespace Invocation

/-- The paths that an invocation looks at with everything below them. -/
def deepPaths (i : Invocation) : List Path :=
  (i.command.operands.filter (· ≠ stdinName)).map Path.ofText

/-- The paths that an invocation looks at by themselves. -/
def flatPaths (here : Place) (i : Invocation) : List Path :=
  let root : Path := match i.workspace with
    | none => ⟨1, here⟩
    | some s => (Path.ofText s).resolve here
  let settings := match i.config with
    | none => Config.fileNames.map fun n => root.append ⟨0, [n]⟩
    | some s => [Path.ofText s]
  settings ++ (i.command.output?.map Path.ofText).toList

/-- Whether an invocation reads the standard input. -/
def readsInput (i : Invocation) : Bool :=
  i.command.operands.any fun s => (Path.ofText s).toText = stdinName

end Invocation

end SqlSnippet
