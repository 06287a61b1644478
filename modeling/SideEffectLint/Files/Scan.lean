import SideEffectLint.Files.Collect
import SideEffectLint.Lint.Analysis

/-!
Linting files. One that cannot be read does not keep the others from being linted.
-/

namespace SideEffectLint

inductive ScanFault where
  | unreadable (file : SystemText) (fault : FileFault)
  | source (fault : SourceFault)
deriving Repr, DecidableEq, Inhabited

namespace ScanFault

def message : ScanFault → String
  | unreadable file fault => "Failed to read file: " ++ file.shown ++ ": " ++ fault.message
  | source fault => fault.message

end ScanFault

/-- Lints a file of which reading has given `text`. -/
def outcomeOf (file : SystemText) (text : Except FileFault String) : FileReport ⊕ FileFailure :=
  let linted : Except ScanFault FileReport := do
    let text ← text.mapError (.unreadable file)
    ((SourceText.ofString text).analyze file.shown).mapError .source
  match linted with
  | .ok report => .inl report
  | .error fault => .inr ⟨file.shown, fault.message⟩

namespace FileSystem

/-- The report on files, in the order in which they are given, if `outcome` tells what becomes of one. -/
def scanFilesBy (fs : FileSystem)
    (outcome : SystemText → Except FileFault String → FileReport ⊕ FileFailure)
    (files : List SystemText) : ScanReport :=
  let outcomes := files.map fun file => outcome file (fs.readText file)
  ⟨outcomes.filterMap Sum.getLeft?, outcomes.filterMap Sum.getRight?⟩

def scanFiles (fs : FileSystem) (files : List SystemText) : ScanReport :=
  fs.scanFilesBy outcomeOf files

def scan (fs : FileSystem) (exclude : Exclude) (path : SystemText) :
    Except CollectFault ScanReport := do
  return fs.scanFiles (← fs.collect exclude path)

end FileSystem

end SideEffectLint
