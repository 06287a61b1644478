/-!
What the lint tells about a function.
-/

namespace SideEffectLint

/-- Names a function by its name, if it has one, and the line it starts on. -/
structure FunctionRef where
  name : Option String
  line : Nat
deriving Repr, DecidableEq, Inhabited

namespace FunctionRef

def display (f : FunctionRef) : String :=
  match f.name with
  | some name => name
  | none => "<anonymous>@" ++ toString f.line

end FunctionRef

/-- A leaf of a function that has a side effect. -/
inductive Finding where
  /-- A member of a parameter is assigned to. -/
  | parameterMutation (line : Nat) (parameter : String) (function : FunctionRef)
  /-- A method that changes its receiver is called. -/
  | blacklistedCall (line : Nat) (method : String) (function : FunctionRef)
deriving Repr, DecidableEq, Inhabited

namespace Finding

def line : Finding → Nat
  | parameterMutation line .. | blacklistedCall line .. => line

def function : Finding → FunctionRef
  | parameterMutation _ _ f | blacklistedCall _ _ f => f

def message : Finding → String
  | parameterMutation line parameter f =>
    "Line " ++ toString line ++ " mutates parameter '" ++ parameter ++ "' of " ++ f.display ++
      " (declared at line " ++ toString f.line ++ ")"
  | blacklistedCall line method f =>
    "Line " ++ toString line ++ " calls mutating method '" ++ method ++ "' in " ++ f.display ++
      " (declared at line " ++ toString f.line ++ "); replace it with a non-mutating alternative"

end Finding

/-- Why a function cannot be linted, and where. -/
inductive FunctionFault where
  | unsupportedParameter (offset : Nat)
  | invalidExpression (offset : Nat)
deriving Repr, DecidableEq, Inhabited

namespace FunctionFault

def message : FunctionFault → String
  | unsupportedParameter offset =>
    "unsupported parameter pattern at byte offset " ++ toString offset
  | invalidExpression offset => "invalid expression at byte offset " ++ toString offset

end FunctionFault

end SideEffectLint
