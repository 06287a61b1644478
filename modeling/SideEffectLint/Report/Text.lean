import SideEffectLint.Report.Basic

/-!
A report as plain text, one line for each thing it tells and a line of totals at the end.
-/

namespace SideEffectLint

namespace SkippedFunction

def line (s : SkippedFunction) : String :=
  "    skipped " ++ s.function.display ++ ": " ++ s.reason ++ "\n"

end SkippedFunction

namespace FileReport

def findingLine (f : Finding) : String :=
  "    " ++ f.message ++ "\n"

/-- The findings of a clean file are not told. -/
def text (r : FileReport) : String :=
  (if r.isClean then r.file ++ ": no side effects found\n"
    else r.file ++ ":\n" ++ String.join (r.findings.map findingLine)) ++
  String.join (r.skipped.map SkippedFunction.line)

end FileReport

namespace FileFailure

def line (f : FileFailure) : String :=
  "Could not process " ++ f.file ++ ", skipping: " ++ f.reason ++ "\n"

end FileFailure

namespace ScanReport

def summary (r : ScanReport) : String :=
  let flagged := r.flagged.length
  toString r.files.length ++ " file(s) scanned: " ++ toString (r.files.length - flagged) ++
    " clean, " ++ toString flagged ++ " flagged (" ++ toString r.findingCount ++ " finding(s))" ++
    (if r.failures.isEmpty then "" else ", " ++ toString r.failures.length ++ " failed") ++ "\n"

def text (r : ScanReport) : String :=
  String.join (r.files.map FileReport.text) ++ String.join (r.failures.map FileFailure.line) ++
    r.summary

end ScanReport

end SideEffectLint
