import SideEffectLint.Lint.Finding
import SideEffectLint.Syntax.Tree

/-!
The functions that a module declares at its top level: function declarations with a body, exported or
not, also as the default export, and variables whose value is an arrow function.
-/

namespace SideEffectLint

structure FoundFunction where
  name : Option String
  params : List Pattern
  span : Span
  body : Body

namespace FoundFunction

def ref (f : FoundFunction) (lines : LineMap) : FunctionRef :=
  ⟨f.name, lines.line f.span.start⟩

end FoundFunction

namespace FunctionBlock

/-- The function that has the body. A declaration without one, as of an overload, declares none. -/
def function? (name : Option String) (params : List Pattern) (span : Span) :
    FunctionBlock → Option FoundFunction
  | missing => none
  | block bodySpan statements => some ⟨name, params, span, .block bodySpan statements⟩

end FunctionBlock

namespace Expr

/-- Without the parentheses around it. -/
def unparenthesized : Expr → Expr
  | paren _ inner => inner.unparenthesized
  | e => e

end Expr

namespace Pattern

/-- The name, if the pattern is nothing else. -/
def name? : Pattern → Option String
  | ident _ name _ => some name
  | _ => none

end Pattern

namespace Declarator

def function? : Declarator → Option FoundFunction
  | .mk _ pattern (some init) =>
    match init.unparenthesized with
    | .arrow span params body => some ⟨pattern.name?, params, span, body⟩
    | _ => none
  | .mk _ _ none => none

end Declarator

namespace Stmt

/-- The functions that a declaration declares. -/
def functions : Stmt → List FoundFunction
  | function span name params body => (body.function? (some name) params span).toList
  | bindings _ declarators => declarators.filterMap Declarator.function?
  | _ => []

end Stmt

namespace ModuleItem

def functions : ModuleItem → List FoundFunction
  | stmt s | exportDecl _ s => s.functions
  | exportDefaultFunction span name params body => (body.function? name params span).toList
  | other .. => []

end ModuleItem

namespace Module

def functions (m : Module) : List FoundFunction :=
  m.items.flatMap ModuleItem.functions

end Module

end SideEffectLint
