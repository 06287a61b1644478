import SideEffectLint.CommandLine.Run

/-!
The program. It looks up what a command may need, and writes what comes of it.
-/

namespace SideEffectLint

private def faultOf : IO.Error → FileFault
  | .permissionDenied .. => .permissionDenied
  | .inappropriateType .. => .notDirectory
  | .hardwareFault .. => .inputOutput
  | _ => .notFound

private def told {α : Type} (read : IO α) : IO (Except FileFault α) := do
  try return .ok (← read)
  catch e => return .error (faultOf e)

mutual

private partial def loadDirectory (children : Except FileFault (Array IO.FS.DirEntry)) :
    IO Tree := do
  match children with
  | .error fault => return Tree.empty.withAccess { list := .error fault }
  | .ok children =>
    let mut tree := Tree.empty
    for child in children do
      if let some name := FileName.ofText? child.fileName then
        match ← told (loadChild name child) with
        | .ok entry => tree := tree.put [name] entry
        | .error fault => tree := tree.withAccess { search := .error fault }
    return tree

/-- What no walk looks at is not read; `Entry.bare` tells what is left then. -/
private partial def loadChild (name : FileName) (child : IO.FS.DirEntry) :
    IO {e : Entry // e.isTree = true} := do
  match (← child.path.symlinkMetadata).type with
  | .symlink => return ⟨.link "", rfl⟩
  | .other => return ⟨.special (.ok .empty), rfl⟩
  | .dir =>
    if name.isAmong isSkippedDirectory then return Tree.empty.entry
    return (← loadDirectory (← told child.path.readDir)).entry
  | .file =>
    if !name.isAmong SourceFile.isSupported then return ⟨.file (.ok .empty), rfl⟩
    return ⟨.file (← told (IO.FS.readBinFile child.path)), rfl⟩

end

/-- The entry that a path leads to. -/
private def loadPath (path : String) : IO {e : Entry // e.isTree = true} := do
  let place ← IO.FS.realPath path
  match (← place.metadata).type with
  | .dir => return (← loadDirectory (← told place.readDir)).entry
  | .file => return ⟨.file (← told (IO.FS.readBinFile place)), rfl⟩
  | _ => return ⟨.special (← told (IO.FS.readBinFile place)), rfl⟩

/-- The current directory with all that the paths lead to. -/
private def load (here : Except FileFault SystemText) (paths : List SystemText) : IO FileSystem := do
  let mut tree := Tree.empty
  if let .ok here := here then
    tree := tree.put (Path.names here) Tree.empty.entry
  for path in paths do
    if let .ok path := if Path.isAbsolute path then .ok path else here.map (Path.join · path) then
      if let .ok entry ← told (loadPath path.shown) then
        tree := tree.put (Path.names path) entry
  return .of tree (here.map Path.names)

def program (words : List SystemText) : IO UInt32 := do
  let here ← told IO.currentDir
  let coloured := CommandLine.isColoured (← IO.getEnv "NO_COLOR") (← IO.getEnv "CLICOLOR_FORCE")
    (← IO.getEnv "CLICOLOR") (← (← IO.getStdout).isTty)
  let paths := match CommandLine.Command.ofWords words with
    | .ok command => command.paths
    | .error _ => []
  let fs ← load (here.map fun path => .ofString path.toString) paths
  let outcome := CommandLine.run fs coloured words
  IO.eprint outcome.errors
  IO.print outcome.output
  return outcome.status.toUInt32

end SideEffectLint

def main (words : List String) : IO UInt32 :=
  SideEffectLint.program (words.map SideEffectLint.SystemText.ofString)
