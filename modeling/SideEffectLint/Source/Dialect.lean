/-!
Which language a file is written in. The end of its name decides, case by case.
-/

namespace SideEffectLint

/-- Type annotations and markup expressions are each either part of the language or not. -/
structure Dialect where
  typed : Bool
  markup : Bool
  /-- The file only declares what is defined elsewhere. -/
  ambient : Bool
deriving Repr, DecidableEq, Inhabited

namespace Dialect

def ofFileName (name : String) : Dialect :=
  if name.endsWith ".tsx" then ⟨true, true, false⟩
  else if name.endsWith ".d.ts" then ⟨true, false, true⟩
  else if name.endsWith ".ts" || name.endsWith ".mts" || name.endsWith ".cts" then
    ⟨true, false, false⟩
  else if name.endsWith ".jsx" then ⟨false, true, false⟩
  else ⟨false, false, false⟩

end Dialect

end SideEffectLint
