import SideEffectLint.Json.Printer
import SideEffectLint.Report.Basic

/-!
Reports as JSON values. Lists that are empty and names that are missing are left out.
-/

namespace SideEffectLint

open Json (Value Member)

def listMember {α : Type} (key : String) (f : α → Value) (xs : List α) : List Member :=
  if xs.isEmpty then [] else [.mk key (.array (xs.map f))]

namespace FunctionRef

def toValue (f : FunctionRef) : Value :=
  .object ((f.name.map fun name => .mk "name" (.string name)).toList ++
    [.mk "line" (.natural f.line)])

end FunctionRef

namespace Finding

/-- The member `kind` tells which rule found it. -/
def toValue : Finding → Value
  | parameterMutation line parameter f =>
    .object [.mk "kind" (.string "ParameterMutation"), .mk "line" (.natural line),
      .mk "parameter" (.string parameter), .mk "function" f.toValue]
  | blacklistedCall line method f =>
    .object [.mk "kind" (.string "BlacklistedCall"), .mk "line" (.natural line),
      .mk "method" (.string method), .mk "function" f.toValue]

end Finding

namespace SkippedFunction

def toValue (s : SkippedFunction) : Value :=
  .object [.mk "function" s.function.toValue, .mk "reason" (.string s.reason)]

end SkippedFunction

namespace FileStatus

def name : FileStatus → String
  | clean => "clean"
  | flagged => "flagged"

end FileStatus

namespace FileReport

def toValue (r : FileReport) : Value :=
  .object ([.mk "file" (.string r.file), .mk "status" (.string r.status.name)] ++
    listMember "findings" Finding.toValue r.findings ++
    listMember "skipped_functions" SkippedFunction.toValue r.skipped)

end FileReport

namespace FileFailure

def toValue (f : FileFailure) : Value :=
  .object [.mk "file" (.string f.file), .mk "reason" (.string f.reason)]

end FileFailure

namespace ScanReport

def toValue (r : ScanReport) : Value :=
  .object (.mk "files" (.array (r.files.map FileReport.toValue)) ::
    listMember "failures" FileFailure.toValue r.failures)

def toJson (r : ScanReport) : String :=
  r.toValue.render

end ScanReport

end SideEffectLint
