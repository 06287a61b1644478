import Mathlib
import SideEffectLint.CommandLine.Run
import SideEffectLint.Proofs.Collect

/-! How an analysis ends. The path, the current directory, the settings and the walk are looked at in this
order, and the first of them that fails decides; nothing that is found in a file does. -/

namespace SideEffectLint

namespace FileSystem

variable {fs : FileSystem} {path here : SystemText}

end FileSystem

namespace CommandLine

def shown (coloured : Bool) (format : Format) (report : ScanReport) : String :=
  match format with
  | .text => report.render coloured
  | .json => report.toJson ++ "\n"

variable {fs : FileSystem} {coloured : Bool} {path place here : SystemText} {format : Option Format}
  {settings : Option SystemText} {words : List SystemText} {o : Outcome}

end CommandLine

end SideEffectLint
