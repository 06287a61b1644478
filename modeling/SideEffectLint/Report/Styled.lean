import SideEffectLint.Report.Text
import SideEffectLint.Text.Styled

/-!
A report as text in colours for a terminal. Without colours it reads like the plain text.
-/

namespace SideEffectLint

namespace FileReport

def findingPieces (f : Finding) : List Piece :=
  [.plain "    ", .styled .red f.message, .plain "\n"]

def skippedPieces (s : SkippedFunction) : List Piece :=
  [.plain "    ", .styled .yellow "skipped", .plain (" " ++ s.function.display ++ ": "),
    .styled .dimmed s.reason, .plain "\n"]

def pieces (r : FileReport) : List Piece :=
  (if r.isClean then
      [.plain (r.file ++ ": "), .styled .green "no side effects found", .plain "\n"]
    else .styled .boldRed r.file :: .plain ":\n" :: r.findings.flatMap findingPieces) ++
  r.skipped.flatMap skippedPieces

end FileReport

namespace FileFailure

def pieces (f : FileFailure) : List Piece :=
  [.styled .yellow "Could not process", .plain (" " ++ f.file ++ ", skipping: "),
    .styled .dimmed f.reason, .plain "\n"]

end FileFailure

namespace ScanReport

def pieces (r : ScanReport) : List Piece :=
  r.files.flatMap FileReport.pieces ++ r.failures.flatMap FileFailure.pieces ++
    [.styled (if r.isClean then .boldGreen else .boldRed) r.summary]

/-- The report for a terminal that shows colours or does not. -/
def render (r : ScanReport) (coloured : Bool) : String :=
  Piece.renderAll coloured r.pieces

end ScanReport

end SideEffectLint
