import SideEffectLint.Lint.Leaf
import SideEffectLint.Lint.Parameters

/-!
The two rules: a leaf must not assign to a member of a parameter, and must not call a method that
changes its receiver. A receiver may be of any type.
-/

namespace SideEffectLint

structure Blacklist where
  methods : List String
deriving Repr, DecidableEq, Inhabited

namespace Blacklist

/-- The methods that change an array in place. -/
def arrayMutators : Blacklist :=
  ⟨["splice", "fill", "shift", "push", "pop", "unshift"]⟩

def contains (b : Blacklist) (method : String) : Bool :=
  b.methods.contains method

end Blacklist

namespace TypedForm

/-- A form that can stand around any expression without changing what the rules see. -/
def isAssertion : TypedForm → Bool
  | instantiation => false
  | _ => true

end TypedForm

namespace Expr

/-- Without the parentheses and assertions around it. -/
def core : Expr → Expr
  | paren _ inner => inner.core
  | typed span form operand types =>
    if form.isAssertion then operand.core else typed span form operand types
  | e => e

def stringValue? (e : Expr) : Option String :=
  match e.core with
  | string _ value => some value
  | _ => none

end Expr

namespace Key

/-- The name that a key stands for, where the text shows it. -/
def staticName? : Key → Option String
  | named _ name => some name
  | computed _ value => value.stringValue?
  | _ => none

end Key

namespace Target

/-- The member access that is assigned to, also inside parentheses: its span and object. -/
def member? : Target → Option (Span × Expr)
  | expr (.member span object _) => some (span, object)
  | expr (.paren _ inner) =>
    match inner.core with
    | .member span object _ => some (span, object)
    | _ => none
  | _ => none

end Target

namespace Expr

def method? (callee : Expr) : Option String :=
  match callee.core with
  | member _ _ key | superMember _ key | chainMember _ _ key _ => key.staticName?
  | _ => none

end Expr

/-- What the rules need to know about the function a leaf is in. -/
structure LintContext where
  params : ParameterSet
  blacklist : Blacklist
  function : FunctionRef
  lines : LineMap

namespace LintContext

variable (ctx : LintContext)

def mutation (target : Target) : Option Finding :=
  match target.member? with
  | some (span, object) =>
    match object.core with
    | .ident _ name =>
      if ctx.params.contains name then
        some (.parameterMutation (ctx.lines.line span.start) name ctx.function)
      else none
    | _ => none
  | none => none

def forbiddenCall (span : Span) (callee : Expr) : Option Finding :=
  match callee.method? with
  | some method =>
    if ctx.blacklist.contains method then
      some (.blacklistedCall (ctx.lines.line span.start) method ctx.function)
    else none
  | none => none

def findInExpr (e : Expr) : Option Finding :=
  match e.core with
  | .assign _ _ target _ => mutation ctx target
  | .call span callee _ => forbiddenCall ctx span callee
  | .chainCall span callee _ _ => forbiddenCall ctx span callee
  | _ => none

/-- What the rules find in a leaf. -/
def find : Node → Option Finding
  | .expr e => findInExpr ctx e
  | .stmt _ => none

end LintContext

end SideEffectLint
