import SideEffectLint.Lint.Finding

/-!
What linting files tells: per file its findings, and what could not be linted.
-/

namespace SideEffectLint

inductive FileStatus where
  | clean
  | flagged
deriving Repr, DecidableEq, Inhabited

structure SkippedFunction where
  function : FunctionRef
  reason : String
deriving Repr, DecidableEq, Inhabited

structure FileReport where
  file : String
  status : FileStatus
  findings : List Finding
  skipped : List SkippedFunction
deriving Repr, DecidableEq, Inhabited

/-- A file that could not be read. -/
structure FileFailure where
  file : String
  reason : String
deriving Repr, DecidableEq, Inhabited

structure ScanReport where
  files : List FileReport
  failures : List FileFailure
deriving Repr, DecidableEq, Inhabited

namespace FileReport

/-- The report of a file whose status says whether something was found. -/
def ofFindings (file : String) (findings : List Finding) (skipped : List SkippedFunction) :
    FileReport :=
  ⟨file, if findings.isEmpty then .clean else .flagged, findings, skipped⟩

def isClean (r : FileReport) : Bool :=
  r.status = .clean

end FileReport

namespace ScanReport

/-- No file is flagged. -/
def isClean (r : ScanReport) : Bool :=
  r.files.all FileReport.isClean

def flagged (r : ScanReport) : List FileReport :=
  r.files.filter fun f => !f.isClean

def findings (r : ScanReport) : List Finding :=
  r.files.flatMap FileReport.findings

def findingCount (r : ScanReport) : Nat :=
  r.findings.length

end ScanReport

end SideEffectLint
