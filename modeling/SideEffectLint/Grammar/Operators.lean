import SideEffectLint.Grammar.Classes
import SideEffectLint.Syntax.Cover

/-!
Expressions built by operators, from unary ones to assignments.
-/

namespace SideEffectLint

namespace Expr

/-- Forms that nothing can be assigned to and no operator follows. -/
def isOperation : Expr → Bool
  | compound _ .conditional _ | compound _ (.binary _) _ | compound _ (.unary _) _
  | compound _ (.update _) _ => true
  | _ => false

/-- What stands left of an assignment by itself, not as a pattern. -/
def isSimpleTarget : Expr → Bool
  | ident .. | member .. | superMember .. | paren .. | chainMember .. | chainCall .. => true
  | typed _ .asConst .. => false
  | typed .. => true
  | _ => false

def isUnaryOrAwait : Expr → Bool
  | compound _ (.unary _) _ | compound _ .awaitValue _ => true
  | _ => false

end Expr

namespace Grammar

open SideEffectLint.Parser

variable (g : Grammar)

private def operator? : Parser (Option (String × Nat)) := do
  match ← token with
  | .word "in" false => pure (if (← scope).allowsIn then some ("in", 7) else none)
  | .word "instanceof" false => pure (some ("instanceof", 7))
  | .mark text => pure ((Token.mark text).precedence?.map (text, ·))
  | _ => pure none

private def assertion (start : Nat) (left : Expr) : Parser Expr := do
  let form := if ← seesWord "as" then TypedForm.asType else .satisfiesType
  if form = .asType && (← peek).1 == .word "const" false then
    advance
    advance
    pure (.typed (← spanFrom start) .asConst left [])
  else
    let type ← inType do
      advance
      typeExpr g
    unless (← scope).inType do
      if ← seesAny ["<", ">"] then readAgain
    pure (.typed (← spanFrom start) form left [type])

/-- An operand of `??` that needs parentheses. -/
private def isLogical : Expr → Bool
  | .compound _ (.binary text) _ => text == "&&" || text == "||"
  | _ => false

/-- A logical operation whose left side is one by `??`. -/
private def mixesOperators (e : Expr) : Bool :=
  match e with
  | .compound _ _ (.expr (.compound _ (.binary "??") _) :: _) => isLogical e
  | _ => false

/-- One operator and its right side, or an assertion. `satisfies` binds as tightly as need be. -/
private def operation? (start : Nat) (left : Expr) (floor : Nat) : Parser (Option Expr) := do
  let isAs ← seesWord "as"
  let asserts := (isAs && floor < 7) || (← seesWord "satisfies")
  if asserts && (← isTyped) && !(← lineBreakBefore) then some <$> assertion g start left
  else
    match ← operator? with
    | none => pure none
    | some (text, binds) =>
      if binds ≤ floor then pure none
      else
        advance
        if text == "**" && left.isUnaryOrAwait then fail .powerOfUnary
        let operand ← g.run .unary
        let right ← g.run (.operators operand (if text == "**" then binds - 1 else binds))
        if text == "??" then
          noteFaultIf (isLogical left)
          noteFaultIf (isLogical right)
        pure (some (.compound (← spanFrom start) (.binary text) [.expr left, .expr right]))

def operators (left : Expr) (floor : Nat) : Parser Expr :=
  repeating left fun left => do
    let next ← operation? g left.span.start left floor
    let e := next.getD left
    noteFaultIf (mixesOperators e)
    pure (if next.isSome then .inl e else .inr e)

/-- Operands with operators between them. A first operand that cannot be read counts as there when
an operator follows. -/
def binary : Parser Expr := do
  let left ← recover (g.run .unary) fun fault place => do
    match ← operator? with
    | some _ => pure (.invalid ⟨place, place⟩)
    | none => failAt place fault
  if left.isArrow then pure left else g.run (.operators left 0)

/-- What follows the word `await`, which is a name where nothing is waited for. -/
def awaitFrom (start : Nat) : Parser Expr := do
  if ← sees "*" then fail .awaitStar
  let isAlone := (← seesEnd) || (← seesAny [")", "]", ","])
  if !(← scope).inAsync && isAlone then pure (.ident (← spanFrom start) "await")
  else
    let scope ← scope
    noteFaultIf (scope.inFunction && !scope.inAsync)
    noteFaultIf (scope.inParams && !scope.inFunction)
    let operand ← g.run .unary
    pure (.compound (← spanFrom start) .awaitValue [.expr operand])

private def angleBracketAssertion (start : Nat) : Parser Expr := do
  advance
  if ← eatWord "const" then
    expect ">"
    let operand ← g.run .unary
    pure (.typed (← spanFrom start) .asConst operand [])
  else
    let type ← typeExpr g
    expect ">"
    let operand ← g.run .unary
    pure (.typed (← spanFrom start) .angleBracket operand [type])

/-- What `delete` takes away in the typed dialects. -/
private def isDeletable : Expr → Bool
  | .paren _ e => isDeletable e
  | .member .. | .chainMember .. => true
  | _ => false

private def prefixed (start : Nat) (text : String) : Parser Expr := do
  advance
  let here ← position
  let operand ← recover (g.run .unary) fun _ _ => do
    noteFault
    pure (.invalid ⟨here, here⟩)
  noteFaultIf ((← isTyped) && text == "delete" && !isDeletable operand)
  pure (.compound (← spanFrom start) (.unary text) [.expr operand])

private def isCountable : Expr → Bool
  | .ident .. | .member .. | .superMember .. => true
  | .paren _ e => isCountable e
  | .typed _ .asConst .. => false
  | .typed _ _ e _ => isCountable e
  | _ => false

/-- A literal, a call or an operation, which is let pass. -/
private def isTolerated : Expr → Bool
  | .string .. | .call .. => true
  | .paren _ e => isTolerated e
  | .compound _ kind _ =>
    match kind with
    | .literal | .superCall | .importCall | .binary _ => true
    | _ => false
  | _ => false

private def prefixUpdate (start : Nat) (text : String) : Parser Expr := do
  advance
  let operand ← g.run .unary
  noteFaultIf ((← isTyped) && !isCountable operand && !isTolerated operand)
  pure (.compound (← spanFrom start) (.update text) [.expr operand])

private def update (start : Nat) : Parser Expr := do
  let operand ← g.run .operand
  if operand.isArrow || (← lineBreakBefore) then pure operand
  else
    match ← token with
    | .mark "++" | .mark "--" =>
      let text := (← token).shown
      advance
      pure (.compound (← spanFrom start) (.update text) [.expr operand])
    | _ => pure operand

def unary : Parser Expr := do
  let start ← position
  match ← token with
  | .mark "<" => do
    if (← isTyped) && !(← scope).dialect.markup then angleBracketAssertion g start
    else update g start
  | .mark text =>
    if ["++", "--"].contains text then prefixUpdate g start text
    else if ["+", "-", "~", "!"].contains text then prefixed g start text
    else update g start
  | .word text false =>
    if ["delete", "void", "typeof"].contains text then prefixed g start text
    else if text == "await" then
      advance
      awaitFrom g start
    else update g start
  | _ => update g start

private def choices (start : Nat) (test : Expr) : Parser Expr := do
  expect "?"
  let yes ← within
    (fun s => { s with inConditional := true, awaitsColon := true, allowsIn := true })
    (g.run .assignment)
  expect ":"
  let no ← within (fun s => { s with inConditional := true, awaitsColon := false })
    (g.run .assignment)
  pure (.compound (← spanFrom start) .conditional [.expr test, .expr yes, .expr no])

def conditionalFrom (test : Expr) : Parser Expr :=
  choices g test.span.start test

/-- An assignment whose left side has been read, if an assignment operator follows. -/
def assignmentFrom (left : Expr) : Parser Expr := do
  if (← token).isAssignment then
    let text := (← token).shown
    let target : Target ← if text == "=" then
        match Cover.target left with
        | .ok target => pure target
        | .error fault => failAt left.span.start fault
      else pure (.expr left)
    match target with
    | .expr e => unless e.isSimpleTarget do failAt left.span.start .invalidTarget
    | .pattern _ => pure ()
    advance
    let value ← g.run .assignment
    pure (.assign (← spanFrom left.span.start) text target value)
  else pure left

private def yieldExpr : Parser Expr := do
  let start ← position
  advance
  if (← scope).inParams then fail .yieldInParams
  let starts := (← sees "*") || (← seesWord "throw") || (← token).startsExpression
  if (← seesEnd) || !starts then pure (.compound (← spanFrom start) .yieldValue [])
  else
    let _ ← eat "*"
    let value ← g.run .assignment
    pure (.compound (← spanFrom start) .yieldValue [.expr value])

/-- An arrow function may start with the token. The name `let` is a parameter only in
parentheses. -/
private def mayStartArrow : Token → Bool
  | .mark text => text == "("
  | .word text escaped => escaped || !(text == "let" || Token.reserved.contains text)
  | _ => false

/-- An assignment, a conditional expression, or an arrow function without type parameters. -/
def plainAssignment : Parser Expr := do
  if (← scope).inGenerator && (← seesWord "yield") then yieldExpr g
  else
    refuseBad
    modify fun s => { s with arrowStart := if mayStartArrow s.token then s.span.start else 0 }
    let test ← binary g
    if test.isArrow then pure test
    else if ← sees "?" then conditionalFrom g test
    else if test.isOperation then pure test
    else assignmentFrom g test

private def startingAt (start : Nat) : Expr → Option Expr
  | .arrow s params body => some (.arrow ⟨start, s.stop⟩ params body)
  | _ => none

private def genericArrow? : Parser (Option Expr) :=
  attempt do
    let start ← position
    arrowTypeParameters g
    let arrow ← within (fun s => { s with awaitsColon := false }) (g.run .assignment)
    match startingAt start arrow with
    | some arrow => pure (some arrow)
    | none => failUnexpected "("

/-- As `plainAssignment`, also an arrow function with type parameters. -/
private def assignmentOrArrow : Parser Expr := do
  let mayBeGeneric := (← isTyped) && (← sees "<") && (← peek).1.isWord
  match ← if mayBeGeneric then genericArrow? g else pure none with
  | some arrow => pure arrow
  | none => plainAssignment g

def assignment : Parser Expr := do
  let mayBeMarkup := (← isTyped) && (← scope).dialect.markup && (← sees "<")
  let first ← if mayBeMarkup then attempt (some <$> assignmentOrArrow g) else pure none
  match first with
  | some e => pure e
  | none => assignmentOrArrow g

end Grammar

end SideEffectLint
