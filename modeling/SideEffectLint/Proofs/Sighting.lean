import SideEffectLint.Lint.Analysis
import SideEffectLint.Proofs.Parameters
import SideEffectLint.Proofs.Traversal

/-! What the rules see in a function before lines come in: the places they point at and the names
they blame. A finding is a sighting that is to blame, told by its line. -/

namespace SideEffectLint

inductive Sighting where
  | mutation (span : Span) (parameter : String)
  | call (span : Span) (method : String)
deriving Repr, DecidableEq, Inhabited

namespace Sighting

/-- Whether the rules object to what is seen. -/
def isBlamed (params : ParameterSet) (blacklist : Blacklist) : Sighting → Bool
  | mutation _ parameter => params.contains parameter
  | call _ method => blacklist.contains method

def finding (function : FunctionRef) (lines : LineMap) : Sighting → Finding
  | mutation span parameter => .parameterMutation (lines.line span.start) parameter function
  | call span method => .blacklistedCall (lines.line span.start) method function

end Sighting

/-- The name, if nothing but parentheses and assertions stand around it. -/
def Expr.name? (e : Expr) : Option String :=
  match e.core with
  | .ident _ name => some name
  | _ => none

/-- The assignment to a member of a variable. -/
def Target.sighting? (t : Target) : Option Sighting :=
  match t.member? with
  | some (span, object) => object.name?.map (.mutation span)
  | none => none

/-- The assignment or the method call that an expression is. -/
def Expr.sighting? (e : Expr) : Option Sighting :=
  match e.core with
  | .assign _ _ target _ => target.sighting?
  | .call span callee _ => callee.method?.map (.call span)
  | .chainCall span callee _ _ => callee.method?.map (.call span)
  | _ => none

def Node.sighting? : Node → Option Sighting
  | .expr e => e.sighting?
  | .stmt _ => none

namespace LintContext

variable (ctx : LintContext)

private theorem mutation_eq (t : Target) :
    ctx.mutation t = (t.sighting?.filter (Sighting.isBlamed ctx.params ctx.blacklist)).map
      (Sighting.finding ctx.function ctx.lines) := by
  unfold mutation Target.sighting? Expr.name?
  cases t.member? with
  | none => rfl
  | some p =>
    obtain ⟨span, object⟩ := p
    cases hc : object.core with
    | ident s name =>
      simp only [hc]
      by_cases h : ctx.params.contains name <;>
        simp [h, Sighting.isBlamed, Sighting.finding, Option.filter]
    | _ => simp only [hc]; rfl

private theorem forbiddenCall_eq (span : Span) (callee : Expr) :
    ctx.forbiddenCall span callee = ((callee.method?.map (.call span)).filter
      (Sighting.isBlamed ctx.params ctx.blacklist)).map
        (Sighting.finding ctx.function ctx.lines) := by
  unfold forbiddenCall
  cases callee.method? with
  | none => rfl
  | some method =>
    by_cases h : ctx.blacklist.contains method <;>
      simp [h, Sighting.isBlamed, Sighting.finding, Option.filter]

/-- The finding at a leaf is what is seen there, if it is to blame. -/
theorem find_eq (n : Node) :
    ctx.find n = (n.sighting?.filter (Sighting.isBlamed ctx.params ctx.blacklist)).map
      (Sighting.finding ctx.function ctx.lines) := by
  cases n with
  | stmt s => rfl
  | expr e =>
    rw [find, Node.sighting?, findInExpr, Expr.sighting?]
    cases e.core with
    | assign span operator target value => exact ctx.mutation_eq target
    | call span callee arguments => exact ctx.forbiddenCall_eq span callee
    | chainCall span callee arguments optional => exact ctx.forbiddenCall_eq span callee
    | _ => rfl

/-- A finding names the function it is made in. -/
theorem function_of_find {ctx : LintContext} {n : Node} {x : Finding} (h : ctx.find n = some x) :
    x.function = ctx.function := by
  rw [find_eq] at h
  obtain ⟨sighting, _, rfl⟩ := Option.map_eq_some_iff.mp h
  cases sighting <;> rfl

end LintContext

namespace FoundFunction

/-- Why a function is skipped. A fault of its parameters goes before one of its body. -/
def fault? (f : FoundFunction) : Option FunctionFault :=
  ((patternPieces f.params).findSome? Pattern.fault?).or (f.body.reached.findSome? Node.fault?)

/-- All that is to blame in the body, in the order in which it is reached. -/
def sightings (f : FoundFunction) (blacklist : Blacklist) : List Sighting :=
  (f.body.reached.filterMap Node.sighting?).filter
    (Sighting.isBlamed (.declaredBy f.params) blacklist)

/-- Linting a function fails with its fault or tells all that is to blame in it. -/
theorem lint_eq (f : FoundFunction) (blacklist : Blacklist) (lines : LineMap) :
    f.lint blacklist lines =
      match f.fault? with
      | none => .ok ((f.sightings blacklist).map (Sighting.finding (f.ref lines) lines))
      | some fault => .error fault := by
  have hf : f.body.reached.filterMap
      (LintContext.find ⟨.declaredBy f.params, blacklist, f.ref lines, lines⟩) =
        (f.sightings blacklist).map (Sighting.finding (f.ref lines) lines) := by
    rw [sightings, List.filter_filterMap, List.map_filterMap]
    exact congrArg (f.body.reached.filterMap ·) (funext (LintContext.find_eq _))
  rw [lint, ParameterSet.ofPatterns_eq, Body.leaves_eq_checked, Node.checked, fault?]
  cases (patternPieces f.params).findSome? Pattern.fault? with
  | some fault => rfl
  | none =>
    cases f.body.reached.findSome? Node.fault? with
    | some fault => rfl
    | none => exact congrArg Except.ok hf

theorem findings_eq (f : FoundFunction) (blacklist : Blacklist) (lines : LineMap) :
    f.findings blacklist lines =
      match f.fault? with
      | none => (f.sightings blacklist).map (Sighting.finding (f.ref lines) lines)
      | some _ => [] := by
  rw [findings, lint_eq]
  cases f.fault? <;> rfl

theorem skipped?_eq (f : FoundFunction) (blacklist : Blacklist) (lines : LineMap) :
    f.skipped? blacklist lines =
      f.fault?.map fun fault => ⟨f.ref lines, fault.message⟩ := by
  rw [skipped?, lint_eq]
  cases f.fault? <;> rfl

end FoundFunction

end SideEffectLint
