import SqlSnippet.Command.Footprint

/-!
# The program

The outermost layer: it takes the files that an invocation looks at from the disk, runs the program
on them, and puts what has changed back. No language server is installed with it.
-/

namespace SqlSnippet

/-- The most directories that are followed below each other. -/
def maxDepth : Nat := 256

/-- Take a file from the disk, and what is denied of it. -/
def takeFile (t : FileTree) (place : Place) (name : String) : IO FileTree := do
  let mut t := t
  try
    t := t.plant place (.file (← IO.FS.readBinFile name).toList)
  catch _ =>
    t := (t.plant place (.file [])).deny .reading place
  try
    discard (IO.FS.Handle.mk name .append)
  catch _ =>
    t := t.deny .writing place
  return t

/-- Take what is at a place from the disk, and the SQL files below it if they are wanted. -/
def takeFrom (isDeep : Bool) : Nat → FileTree → Place → IO FileTree
  | 0, t, _ => return t
  | depth + 1, t, place => do
    let file := (← IO.currentDir) / String.ofList (Path.mk 1 place).toText
    if ← file.isDir then
      let t := if place.isEmpty then t else t.plant place .directory
      if isDeep then
        (← file.readDir).foldlM (fun t e =>
          takeFrom isDeep depth t (place ++ [e.fileName.toList])) t
      else return t
    else if ← file.pathExists then
      takeFile t place file.toString
    else return t

/-- Take what a path goes through and leads to. -/
def takePath (here : Place) (isDeep : Bool) (t : FileTree) (p : Path) : IO FileTree := do
  let names := if p.isAbsolute then p.names else here ++ p.names
  let t ← (List.range names.length).foldlM (fun t i =>
    takeFrom false maxDepth t (Path.cancelDots [] (names.take i))) t
  takeFrom isDeep maxDepth t (Path.cancelDots [] names)

/-- Everything that an invocation looks at. -/
def takeFiles (here : Place) (args : List Text) : IO FileTree := do
  match Invocation.read args with
  | .ok (some i) =>
    let t ← (i.flatPaths here).foldlM (takePath here false) .empty
    i.deepPaths.foldlM (takePath here true) t
  | _ => return .empty

/-- The rest of a stream. -/
partial def readAll (s : IO.FS.Stream) (done : ByteArray) : IO ByteArray := do
  let chunk ← s.read 65536
  if chunk.isEmpty then return done else readAll s (done ++ chunk)

/-- The standard input, if an invocation reads it. -/
def takeInput (args : List Text) : IO (List UInt8) := do
  match Invocation.read args with
  | .ok (some i) =>
    if i.readsInput then return (← readAll (← IO.getStdin) .empty).toList else return []
  | _ => return []

/-- Put the files back that have changed. -/
def putFiles (old new : FileTree) : IO Unit :=
  new.entries.forM fun (place, e) => do
    match e with
    | .file bytes =>
      if old.get? place ≠ some e then
        IO.FS.writeBinFile (String.ofList (Path.mk 1 place).toText) ⟨bytes.toArray⟩
    | .directory => return

/-- What the program finds around it. -/
def takeSurroundings (here : Place) : IO Surroundings := do
  let get (name : String) : IO (Option Text) := return (← IO.getEnv name).map String.toList
  return {
    here
    environment := ⟨← get "COMPLEXSQL_VERBOSE", ← get "COMPLEXSQL_DEBUG",
      ← get "COMPLEXSQL_RERAISE", ← get "COMPLEXSQL_LOG_LEVEL"⟩
    clock := toString (← IO.monoMsNow) ++ " ms"
    process := "0"
    trace := fun f => f.name ++ ": " ++ f.message
    server := none }

end SqlSnippet

open SqlSnippet in
/-- Run the program on the command line. -/
def main (args : List String) : IO UInt32 := do
  let here := (Path.ofText (← IO.currentDir).toString.toList).names
  let args := args.map String.toList
  let tree ← takeFiles here args
  let (ending, s) := runProgram (← takeSurroundings here) args (.start tree (← takeInput args))
  putFiles tree s.tree
  (← IO.getStdout).putStr (String.ofList s.out)
  (← IO.getStderr).putStr (String.ofList s.err)
  match ending with
  | .exit code => return code.toUInt32
  | .raised f =>
    (← IO.getStderr).putStr (f.name ++ ": " ++ f.message ++ "\n")
    return 1
