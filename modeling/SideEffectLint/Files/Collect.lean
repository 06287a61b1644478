import SideEffectLint.Files.System
import SideEffectLint.Path.Exclude

/-!
The source files under a path. Links are not followed on the way down, and some directories are not
entered; the path itself may be either. Names that are no texts are those of no source file and of no
directory that is passed over.
-/

namespace SideEffectLint

namespace SourceFile

def extensions : List String :=
  ["js", "mjs", "cjs", "jsx", "ts", "mts", "cts", "tsx"]

/-- What follows the last dot, which is not the first character. -/
def extension? (name : String) : Option String :=
  let tail := name.toList.reverse.takeWhile (· != '.')
  if tail.length + 1 < name.length then some (String.ofList tail.reverse) else none

/-- A name with one of the extensions that does not say that the file only declares types. -/
def isSupported (name : String) : Bool :=
  !name.endsWith ".d.ts" && (extension? name).any extensions.contains

end SourceFile

/-- Why the files under a path cannot be told. -/
inductive CollectFault where
  | notFound (path : SystemText)
  | unreadable (directory : SystemText) (fault : FileFault)
  /-- A list of names breaks off. -/
  | unlisted (fault : FileFault)
  /-- A name is listed, but not what stands for it. -/
  | unknown (path : SystemText) (fault : FileFault)
deriving Repr, DecidableEq, Inhabited

namespace CollectFault

/-- The messages from the outermost to the cause. -/
def messages : CollectFault → List String
  | notFound path => ["Path does not exist: " ++ path.shown]
  | unreadable directory fault =>
    ["Failed to read directory: " ++ directory.shown, fault.message]
  | unlisted fault => [fault.message]
  | unknown path fault => ["Failed to read metadata: " ++ path.shown, fault.message]

end CollectFault

/-- Directories of tools, of build results and of the code of others. -/
def isSkippedDirectory (name : String) : Bool :=
  name.startsWith "." || ["node_modules", "dist", "build", "coverage"].contains name

/-- The name is a text with the property. -/
def FileName.isAmong (p : String → Bool) (name : FileName) : Bool :=
  name.text.text?.any p

/-- Whether it can be told what has the path, in a directory with such an access. -/
def Access.lookUp (access : Access) (path : SystemText) : Except FileFault Unit :=
  if FileSystem.maxPathBytes < path.bytes.length then .error .nameTooLong else access.search

section

-- Directories with such names are passed over.
variable (skips : String → Bool)

mutual

/-- The source files that an entry of a directory stands for. -/
def Entry.sources (path : SystemText) (name : FileName) :
    Entry → Except CollectFault (List SystemText)
  | .file _ => .ok (if name.isAmong SourceFile.isSupported then [path] else [])
  | .directory d => if name.isAmong skips then .ok [] else d.sources path
  | .link _ | .special _ => .ok []

def Directory.sources (path : SystemText) : Directory → Except CollectFault (List SystemText)
  | .mk access children => do
    access.list.mapError (.unreadable path)
    Child.sources path access children

/-- A fault ends the walk at the first item that has one. -/
def Child.sources (directory : SystemText) (access : Access) :
    List Child → Except CollectFault (List SystemText)
  | [] => .ok []
  | .unread fault :: _ => .error (.unlisted fault)
  | .mk name e :: cs => do
    let path := Path.join directory name.text
    (access.lookUp path).mapError (.unknown path)
    let first ← e.sources path name
    let rest ← Child.sources directory access cs
    pure (first ++ rest)

end

end

namespace FileSystem

/-- The source files under a path if directories are passed over for which `skips` holds. -/
def underPast (fs : FileSystem) (skips : String → Bool) (path : SystemText) :
    Except CollectFault (List SystemText) :=
  match fs.entry path with
  | .ok (.file _) =>
    .ok (if ((Path.fileName path).bind SystemText.text?).any SourceFile.isSupported then [path]
      else [])
  | .ok (.directory d) => d.sources skips path
  | _ => .error (.notFound path)

/-- Those of them that are not excluded, in the order of their paths. -/
def collectPast (fs : FileSystem) (skips : String → Bool) (exclude : Exclude) (path : SystemText) :
    Except CollectFault (List SystemText) := do
  return Path.sort ((← fs.underPast skips path).filter (exclude.keeps ·.shown))

def collect (fs : FileSystem) (exclude : Exclude) (path : SystemText) :
    Except CollectFault (List SystemText) :=
  fs.collectPast isSkippedDirectory exclude path

end FileSystem

end SideEffectLint
