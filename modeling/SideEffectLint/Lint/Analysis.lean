import SideEffectLint.Grammar.Program
import SideEffectLint.Lint.Discovery
import SideEffectLint.Lint.Rules
import SideEffectLint.Report.Basic

/-!
Linting a module and a source text. A function that cannot be linted is skipped by itself.
-/

namespace SideEffectLint

namespace FoundFunction

/-- The findings of a function in the order of its leaves. -/
def lint (f : FoundFunction) (blacklist : Blacklist) (lines : LineMap) :
    Except FunctionFault (List Finding) := do
  let params ← ParameterSet.ofPatterns f.params
  let leaves ← f.body.leaves
  pure (leaves.filterMap (LintContext.find ⟨params, blacklist, f.ref lines, lines⟩))

/-- What a function adds to the findings of its file; nothing when it is skipped. -/
def findings (f : FoundFunction) (blacklist : Blacklist) (lines : LineMap) : List Finding :=
  match f.lint blacklist lines with
  | .ok findings => findings
  | .error _ => []

def skipped? (f : FoundFunction) (blacklist : Blacklist) (lines : LineMap) :
    Option SkippedFunction :=
  match f.lint blacklist lines with
  | .ok _ => none
  | .error fault => some ⟨f.ref lines, fault.message⟩

end FoundFunction

namespace Module

/-- The report of a module that has been read from `file`. -/
def report (m : Module) (file : String) (blacklist : Blacklist) (lines : LineMap) : FileReport :=
  .ofFindings file
    (m.functions.flatMap (·.findings blacklist lines))
    (m.functions.filterMap (·.skipped? blacklist lines))

end Module

/-- A source text that cannot be read. -/
structure SourceFault where
  file : String
  fault : SyntaxFault
deriving Repr, DecidableEq, Inhabited

namespace SourceFault

def message (f : SourceFault) : String :=
  "Failed to parse source file: " ++ f.file ++ ": Parse error: " ++ f.fault.message

end SourceFault

/-- A source text without the byte order mark that it may start with. -/
structure SourceText where
  chars : List Char

namespace SourceText

def ofString (text : String) : SourceText :=
  match text.toList with
  | '\ufeff' :: cs => ⟨cs⟩
  | cs => ⟨cs⟩

def lines (t : SourceText) : LineMap :=
  .ofText t.chars

/-- Reads a text in the language that the name of its file tells. -/
def parse (t : SourceText) (file : String) : Except SourceFault Module :=
  (Module.parse (.ofFileName file) t.chars).mapError (⟨file, ·⟩)

def analyze (t : SourceText) (file : String) : Except SourceFault FileReport :=
  (t.parse file).map fun m => m.report file .arrayMutators t.lines

end SourceText

end SideEffectLint
