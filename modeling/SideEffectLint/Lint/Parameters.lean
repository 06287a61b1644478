import SideEffectLint.Lint.Finding
import SideEffectLint.Syntax.Tree

/-!
The names that the parameters of a function bind. Default values, keys and types bind none.
-/

namespace SideEffectLint

mutual

/-- The names that a pattern binds, or the first piece in it that cannot be a parameter. -/
def Pattern.bindings : Pattern → Except FunctionFault (List String)
  | .ident _ name _ => .ok [name]
  | .array _ elements _ => patternBindings elements
  | .object _ members _ => memberBindings members
  | .rest _ argument _ => argument.bindings
  | .withDefault _ left _ => left.bindings
  | .hole => .ok []
  | .expr e => .error (.unsupportedParameter e.span.start)
  | .invalid span => .error (.unsupportedParameter span.start)

def patternBindings : List Pattern → Except FunctionFault (List String)
  | [] => .ok []
  | p :: ps => do
    let first ← p.bindings
    let rest ← patternBindings ps
    pure (first ++ rest)

def memberBindings : List PatternMember → Except FunctionFault (List String)
  | [] => .ok []
  | m :: ms => do
    let first ← m.bindings
    let rest ← memberBindings ms
    pure (first ++ rest)

def PatternMember.bindings : PatternMember → Except FunctionFault (List String)
  | .keyValue _ value => value.bindings
  | .shorthand _ name _ => .ok [name]
  | .rest _ argument => argument.bindings

end

structure ParameterSet where
  names : List String
deriving Repr, DecidableEq, Inhabited

namespace ParameterSet

def ofPatterns (params : List Pattern) : Except FunctionFault ParameterSet :=
  (patternBindings params).map (⟨·⟩)

def contains (s : ParameterSet) (name : String) : Bool :=
  s.names.contains name

end ParameterSet

end SideEffectLint
