import SideEffectLint.Syntax.Fault
import SideEffectLint.Syntax.Tree

/-!
Patterns that are first read as expressions: the left side of an assignment, and the parameters of
an arrow function. A piece that cannot be a pattern becomes an invalid one in its place.
-/

namespace SideEffectLint

/-- What the names of a pattern do: be declared, or be assigned to. -/
inductive PatternRole where
  | binding
  | assignment
deriving DecidableEq

/-- An item between the parentheses of what may be an arrow function. -/
inductive ParenItem where
  | element (value : Element)
  | pattern (value : Pattern)

namespace Target

def toPattern : Target → Pattern
  | .pattern p => p
  | .expr (.ident s name) => .ident s name none
  | .expr e => .expr e

end Target

namespace Expr

/-- What stands as a whole where an element of an assigned pattern is. -/
def isAssignable : Expr → Bool
  | member .. | superMember .. | call .. | string .. | paren .. | typed _ .asType .. => true
  | compound _ kind _ =>
    match kind with
    | .newInstance | .superCall | .importCall | .literal | .function | .classValue | .template =>
      true
    | _ => false
  | _ => false

def isAssign : Expr → Bool
  | assign .. => true
  | _ => false

end Expr

namespace Cover

mutual

/-- An element of a pattern. -/
def element (role : PatternRole) : Expr → Except SyntaxFault Pattern
  | .ident s name => .ok (.ident s name none)
  | .array s elements =>
    (elementList role elements).map fun r => .array s r.1 none
  | .object s props => (properties role props).map fun members => .object s members none
  | .assign s "=" target value => .ok (.withDefault s target.toPattern value)
  | e =>
    if role = .assignment && e.isAssignable then .ok (.expr e) else .ok (.invalid e.span)

/-- The patterns of array elements without the holes at the end, and whether only holes were left.
A rest element stands last or is left out. -/
def elementList (role : PatternRole) : List Element → Except SyntaxFault (List Pattern × Bool)
  | [] => .ok ([], true)
  | .hole :: rest => do
    let (patterns, holesOnly) ← elementList role rest
    pure (if holesOnly then ([], true) else (.hole :: patterns, false))
  | .plain e :: rest => do
    let p ← element role e
    let (patterns, _) ← elementList role rest
    pure (p :: patterns, false)
  | .spread s e :: [] => do
    let p ← element role e
    pure ([.rest s p none], false)
  | .spread _ _ :: rest => do
    let (patterns, _) ← elementList role rest
    pure (patterns, false)

def properties (role : PatternRole) : List Property → Except SyntaxFault (List PatternMember)
  | [] => .ok []
  | .shorthand s name :: rest => do
    pure (.shorthand s name none :: (← properties role rest))
  | .shorthandDefault s name value :: rest => do
    pure (.shorthand s name (some value) :: (← properties role rest))
  | .keyValue key value :: rest => do
    let p ← element role value
    pure (.keyValue key p :: (← properties role rest))
  | .method .. :: _ => .error .notAPattern
  | .spread s e :: rest => do
    let p ← match role, e with
      | .assignment, e => element role e
      | .binding, .ident s name => pure (.ident s name none)
      | .binding, _ => pure (.invalid s)
    pure (.rest s p :: (← properties role rest))

end

/-- The left side of an assignment by `=`. -/
def target : Expr → Except SyntaxFault Target
  | .array s elements => (element .assignment (.array s elements)).map .pattern
  | .object s props => (element .assignment (.object s props)).map .pattern
  | e => .ok (.expr e)

/-- The head of a loop over a collection. -/
def loopTarget (e : Expr) : Except SyntaxFault Pattern :=
  (target e).map Target.toPattern

private def last : ParenItem → Except SyntaxFault (List Pattern)
  | .element .hole => .ok []
  | .element (.plain e) => (element .binding e).map ([·])
  | .element (.spread s e) => (element .binding e).map fun p => [.rest s p none]
  | .pattern p => .ok [p]

private def inner : ParenItem → Except SyntaxFault (List Pattern)
  | .element (.spread ..) | .element .hole | .pattern (.rest ..) => .ok []
  | .element (.plain e) => (element .binding e).map ([·])
  | .pattern p => .ok [p]

/-- Parameters of an arrow function. A rest parameter stands last or is left out. -/
def params : List ParenItem → Except SyntaxFault (List Pattern)
  | [] => .ok []
  | [item] => last item
  | item :: items => do
    let first ← inner item
    pure (first ++ (← params items))

private def one (condition : Bool) : Nat :=
  if condition then 1 else 0

mutual

/-- The number of faults in what is read as a declared pattern that reading goes on after. Of the
literals, those end with a comma that start at one of `commas`. -/
def elementFlaws (commas : List Nat) : Expr → Nat
  | .ident .. | .invalid _ | .assign _ "=" _ _ => 0
  | .array s elements => listFlaws commas (commas.contains s.start) elements
  | .object s props => propertyFlaws commas (commas.contains s.start) props
  | _ => 1

private def listFlaws (commas : List Nat) (endsWithComma : Bool) : List Element → Nat
  | [] => 0
  | .hole :: rest => listFlaws commas endsWithComma rest
  | .plain e :: rest => elementFlaws commas e + listFlaws commas endsWithComma rest
  | .spread _ e :: [] => one e.isAssign + one endsWithComma + elementFlaws commas e
  | .spread _ _ :: rest => 1 + listFlaws commas endsWithComma rest

private def propertyFlaws (commas : List Nat) (endsWithComma : Bool) : List Property → Nat
  | [] => 0
  | .keyValue _ value :: rest =>
    elementFlaws commas value + propertyFlaws commas endsWithComma rest
  | .spread _ e :: rest =>
    let isName := match e with
      | .ident .. => true
      | _ => false
    one (endsWithComma || !rest.isEmpty) + one (!isName) + propertyFlaws commas endsWithComma rest
  | _ :: rest => propertyFlaws commas endsWithComma rest

end

/-- As `elementFlaws`, for the parameters of an arrow function. -/
def paramFlaws (commas : List Nat) (endsWithComma : Bool) : List ParenItem → Nat
  | [] => 0
  | .element (.plain e) :: items => elementFlaws commas e + paramFlaws commas endsWithComma items
  | .element (.spread _ e) :: [] => one e.isAssign + one endsWithComma + elementFlaws commas e
  | .pattern (.rest ..) :: [] => one endsWithComma
  | .element (.spread ..) :: items | .pattern (.rest ..) :: items =>
    1 + paramFlaws commas endsWithComma items
  | _ :: items => paramFlaws commas endsWithComma items

end Cover

end SideEffectLint
