import SideEffectLint.Grammar.Patterns

/-!
Functions: what follows their name, and their bodies.
-/

namespace SideEffectLint

namespace FunctionBlock

def isMissing : FunctionBlock → Bool
  | missing => true
  | block .. => false

/-- With its parameters, as pieces of a form that the lint does not look into. -/
def parts (params : List Pattern) : FunctionBlock → List Part
  | missing => params.map .pattern
  | block span statements => [.function params (.block span statements)]

end FunctionBlock

structure FunctionTail where
  params : List Pattern
  body : FunctionBlock

namespace FunctionTail

def parts (f : FunctionTail) : List Part :=
  f.body.parts f.params

end FunctionTail

namespace Grammar

open SideEffectLint.Parser

variable (g : Grammar)

private def seesStrictDirective : Parser Bool := do
  let s ← state
  pure (s.token == .string "use strict" && s.after.offset - s.here.offset = 12)

def withDirective {α : Type} (p : Parser α) : Parser α := do
  if ← seesStrictDirective then within (fun s => { s with strict := true }) p else p

/-- Statements in braces, which may start with a directive. A brace that is missing at the end of
the text counts as there. -/
def block (mayHaveDirective : Bool) : Parser (Span × List Stmt) := do
  let start ← position
  expect "\x7b"
  let all : Parser (List Stmt) := collect do
    if (← sees "\x7d") || (← token) == .finish then pure none
    else some <$> g.run (.statement true)
  let statements ← if mayHaveDirective then withDirective all else all
  let _ ← eat "\x7d"
  pure (← spanFrom start, statements)

private def functionScope (isAsync isGenerator : Bool) (s : Scope) : Scope :=
  { s with inAsync := isAsync, inGenerator := isGenerator, inStaticBlock := false }

private def bodyScope (isAsync isGenerator : Bool) (s : Scope) : Scope :=
  { functionScope isAsync isGenerator s with
    inFunction := true
    inParams := false
    mayBreak := false
    mayContinue := false
    labels := [] }

private def bracedScope (isAsync isGenerator : Bool) (s : Scope) : Scope :=
  { bodyScope isAsync isGenerator s with
    allowsIn := true
    awaitsColon := false
    leavesElse := false }

/-- What a function of its own allows, which is no arrow function. -/
private def ownScope (isAsync isGenerator : Bool) (s : Scope) : Scope :=
  { functionScope isAsync isGenerator s with hasNewTarget := true, inField := false }

private def isName : Pattern → Bool
  | .ident .. => true
  | _ => false

private def hasDirective : List Stmt → Bool
  | .expr _ (.string s text) :: rest =>
    (text == "use strict" && s.stop - s.start = 12) || hasDirective rest
  | _ => false

/-- A body in braces. It must not make itself strict unless all parameters are names. -/
private def bracedBody (isAsync isGenerator mayHaveDirective : Bool) (params : List Pattern) :
    Parser (Span × List Stmt) := do
  let body ← within (bracedScope isAsync isGenerator) (block g mayHaveDirective)
  noteFaultIf (!params.all isName && hasDirective body.2)
  pure body

/-- The body after parameters; in the typed dialects the statement may end instead, and then no
parameter should have a value. -/
private def bodyAfter (isAsync isGenerator : Bool) (params : List Pattern) :
    Parser FunctionTail := do
  if ← (isTyped <&&> not <$> sees "\x7b" <&&> eatEnd) then
    noteFaults (params.countP hasValue)
    pure ⟨params, .missing⟩
  else
    let (span, statements) ← bracedBody g isAsync isGenerator true params
    pure ⟨params, .block span statements⟩

def functionTail (isAsync isGenerator : Bool) : Parser FunctionTail :=
  within (ownScope isAsync isGenerator) do
    if ← isTyped then
      let _ ← typeParameters? g
    expect "("
    let params ← within (fun s => { s with inParams := true, inFunction := false }) (g.run .params)
    expect ")"
    if (← isTyped) && (← sees ":") then
      let _ ← resultType g ":"
    bodyAfter g isAsync isGenerator params

/-- A method, where the super class may be reached. -/
def methodTail (isAsync isGenerator : Bool) : Parser FunctionTail :=
  within (fun s => { s with allowsSuper := true }) (functionTail g isAsync isGenerator)

/-- Parameters and body of a constructor. It should have neither type parameters nor a result type,
and no fields among its parameters without a body. -/
def constructorTail : Parser FunctionTail :=
  within (fun s => { s with allowsSuper := true, hasNewTarget := true, inField := false }) do
    if ← isTyped then strayTypeParameters g
    expect "("
    let params ← constructorParams g
    expect ")"
    if ← isTyped then
      let type ← typeNote? g
      noteFaultIf type.isSome
    let tail ← bodyAfter g false false (params.map (·.pattern))
    if tail.body.isMissing then noteFaults (params.countP (·.isField))
    pure tail

def arrowBody (isAsync : Bool) (params : List Pattern) : Parser Body := do
  if ← sees "\x7b" then
    let (span, statements) ← bracedBody g isAsync false false params
    pure (.block span statements)
  else .expr <$> within (bodyScope isAsync false) (g.run .assignment)

def functionExpr : Parser Expr := do
  let start ← position
  let isAsync ← eatWord "async"
  expectWord "function"
  let isGenerator ← eat "*"
  within (fun s => { s with allowsSuper := false, awaitsColon := false }) do
    within (functionScope isAsync isGenerator) do
      if ← seesName then
        let _ ← declaredName
    let tail ← functionTail g isAsync isGenerator
    if tail.body.isMissing then failUnexpected "\x7b"
    pure (.compound (← spanFrom start) .function tail.parts)

end Grammar

end SideEffectLint
