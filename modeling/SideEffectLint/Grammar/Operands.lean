import SideEffectLint.Grammar.Operators

/-!
Operands of expressions: literals, names, arrow functions, parentheses, `new`, and what they are
subscripted with.
-/

namespace SideEffectLint

namespace Grammar

open SideEffectLint.Parser

variable (g : Grammar)

private def patternOf (e : Expr) : Parser Pattern :=
  match Cover.element .binding e with
  | .ok p => pure p
  | .error fault => failAt e.span.start fault

/-- What stands in parentheses, and whether it ends with a comma. -/
private structure ParenItems where
  items : List ParenItem
  endsWithComma : Bool := false

private def paramsOf (p : ParenItems) : Parser (List Pattern) := do
  match Cover.params p.items with
  | .ok params =>
    noteFaults (Cover.paramFlaws (← state).trailingCommas p.endsWithComma p.items)
    pure params
  | .error fault => fail fault

private def isOptionalEnd : Token → Bool
  | .mark text => [",", ":", ")", "="].contains text
  | _ => false

private def isIdent : Element → Bool
  | .plain (.ident ..) | .spread _ (.ident ..) => true
  | _ => false

/-- In the typed dialects a name comes without the conditional expression it may start, because a
question mark after it may make it optional. -/
private def itemElement (start : Nat) : Parser Element := do
  let typedName := (← isTyped) &&
    ((← seesName) || ((← sees "...") && (← peeksName)))
  if typedName then
    if ← eat "..." then
      let value ← binary g
      pure (.spread (← spanFrom start) value)
    else
      let value ← binary g
      .plain <$> assignmentFrom g value
  else allowingIn (element g)

/-- A question mark after an element: the element, and whether it is optional. -/
private def optionalElement (e : Element) : Parser (Element × Bool) := do
  if (← isTyped) && (← sees "?") then
    if isOptionalEnd (← peek).1 then
      advance
      unless isIdent e do fail .bindingCannotBeOptional
      pure (e, true)
    else
      match e with
      | .plain test => (fun e => (.plain e, false)) <$> conditionalFrom g test
      | _ => pure (e, false)
  else pure (e, false)

private def isAnnotatable : Pattern → Bool
  | .ident .. | .array .. | .object .. | .rest .. => true
  | _ => false

/-- A parameter of an arrow function whose type or question mark gives it away. -/
private def annotatedItem (start : Nat) (e : Element) : Parser Pattern := do
  let p ← match e with
    | .plain e => patternOf e
    | .spread s e => do pure (.rest s (← patternOf e) none)
    | .hole => pure .hole
  let type ← if isAnnotatable p then typeNote? g else pure none
  let p := p.withType type
  if ← eat "=" then
    let value ← g.run .assignment
    pure (.withDefault (← spanFrom start) p value)
  else pure p

private def startsWithName : List ParenItem → Bool
  | .element e :: _ => isIdent e
  | .pattern (.ident ..) :: _ => true
  | _ => false

private def startsAsync : Parser Bool := do
  let next := (← peek).1
  pure ((← seesWord "async") && (next == .mark "(" || next.isWord))

/-- An item that was a name or parameters of an arrow function, whose arrow has been read. -/
private def arrowItem (start : Nat) (isAsync : Bool) (items : List ParenItem) :
    Parser ParenItem := do
  let params ← paramsOf { items := items }
  let body ← arrowBody g isAsync params
  pure (.element (.plain (.arrow (← spanFrom start) params body)))

/-- What stands in parentheses, as parameters or arguments. -/
private def parenItems : Parser ParenItems := do
  expect "("
  let items ← repeating (([] : List ParenItem), false) fun (acc, comma) => do
    if ← sees ")" then pure (.inr ⟨acc.reverse, comma⟩)
    else
      let start ← position
      let isAsync ← startsAsync
      modify fun s => { s with arrowStart := start }
      let hasAccess ← eatAccess
      let first ← position
      let e ← itemElement g first
      let (e, optional) ← optionalElement g e
      let item : ParenItem ← if optional || ((← isTyped) && (← sees ":")) then
          .pattern <$> annotatedItem g first e
        else pure (.element e)
      noteFaultIf hasAccess
      let acc := item :: acc
      let acc ← if ← (eat "=>" <&&> pure (startsWithName acc.reverse)) then
          pure ((← arrowItem g start isAsync acc.reverse) :: acc)
        else pure acc
      let last ← sees ")"
      unless last do expect ","
      pure (.inl (acc, !last))
  expect ")"
  pure items

private def isPatternItem : ParenItem → Bool
  | .pattern _ => true
  | _ => false

/-- An arrow function in a conditional expression. Its result type starts like the other branch. -/
private def arrowInConditional? (start : Nat) (isAsync : Bool) (items : ParenItems) :
    Parser (Option Expr) :=
  attempt do
    let _ ← resultType g ":"
    expect "=>"
    let params ← paramsOf items
    let body ← arrowBody g isAsync params
    if (← scope).awaitsColon && !(← sees ":") then failUnexpected "fail"
    pure (some (.arrow (← spanFrom start) params body))

private def resultBeforeArrow? : Parser (Option Unit) :=
  attempt do
    let _ ← resultType g ":"
    if ← sees "=>" then pure (some ()) else pure none

private def isBlock : Body → Bool
  | .block .. => true
  | _ => false

/-- The arrow and body of an arrow function. An operator after a body in braces is read on. -/
private def arrowFrom (start : Nat) (isAsync mayArrow : Bool) (items : ParenItems) :
    Parser Expr := do
  if ← lineBreakBefore then failAt start .lineBreakBeforeArrow
  unless mayArrow do failAt start .arrowNotAllowed
  expect "=>"
  let params ← paramsOf items
  let body ← arrowBody g isAsync params
  let arrow := Expr.arrow (← spanFrom start) params body
  if isBlock body && (← token).precedence?.isSome then
    let e ← g.run (.operators arrow 0)
    noteFaultIf !(← seesEnd)
    pure e
  else pure arrow

private def elementsOf : List ParenItem → Option (List Element)
  | [] => some []
  | .element e :: items => (elementsOf items).map (e :: ·)
  | .pattern _ :: _ => none

private def plainOf : List Element → Option (List Expr)
  | [] => some []
  | .plain e :: rest => (plainOf rest).map (e :: ·)
  | _ :: _ => none

/-- Defaults such as `name = value` in an object, which only a pattern may hold. -/
private def strayDefaults : Element → Nat
  | .plain (.object _ props) | .spread _ (.object _ props) =>
    props.countP fun | .shorthandDefault .. => true | _ => false
  | _ => 0

private def itemDefaults : ParenItem → Nat
  | .element e => strayDefaults e
  | .pattern _ => 0

/-- Parentheses that are no parameters: a group, or the arguments of a function called `async`. -/
private def groupFrom (start : Nat) (asyncSpan : Option Span) (items : List ParenItem) :
    Parser Expr := do
  let span ← spanFrom start
  items.forM fun item => noteFaults (itemDefaults item)
  match elementsOf items with
  | none => fail .notAnExpression
  | some elements =>
    match asyncSpan with
    | some s => pure (.call span (.ident s "async") elements)
    | none =>
      if elements.isEmpty then failAt start .emptyParentheses
      else
        match plainOf elements with
        | none => failAt start .spreadInParentheses
        | some [e] => pure (.paren span e)
        | some es =>
          let inner : Span := ⟨((es.head?.map (·.span.start)).getD span.start),
            ((es.getLast?.map (·.span.stop)).getD span.stop)⟩
          pure (.paren span (.compound inner .sequence (es.map .expr)))

/-- Parentheses, or an arrow function that starts with them. -/
def parenthesized (mayArrow : Bool) (asyncSpan : Option Span) : Parser Expr := do
  let start := (asyncSpan.map (·.start)).getD (← position)
  let isAsync := asyncSpan.isSome
  let items ← within (fun s => { s with awaitsColon := false, allowsIn := true }) (parenItems g)
  let inConditional := (← isTyped) && (← scope).inConditional && (← sees ":")
  match ← if inConditional then arrowInConditional? g start isAsync items else pure none with
  | some arrow => pure arrow
  | none =>
    let mayHaveResult := !(← scope).awaitsColon && (← isTyped) && (← sees ":")
    let result ← if mayHaveResult then resultBeforeArrow? g else pure none
    if items.items.any isPatternItem || result.isSome || (← sees "=>") then
      arrowFrom g start isAsync mayArrow items
    else groupFrom start asyncSpan items.items

private def singleParamArrow (start : Nat) (param : Span × String) (isAsync : Bool) :
    Parser Expr := do
  expect "=>"
  let params := [.ident param.1 param.2 none]
  let body ← arrowBody g isAsync params
  pure (.arrow (← spanFrom start) params body)

/-- After the name `async`: an arrow function with one parameter. -/
private def asyncArrow (start : Nat) (asyncSpan : Span) : Parser Expr := do
  let paramStart ← position
  let name ← declaredName
  let span ← spanFrom paramStart
  if (← isTyped) && name == "as" && !(← sees "=>") then
    let type ← typeExpr g
    pure (.typed (← spanFrom start) .asType (.ident asyncSpan "async") [type])
  else singleParamArrow g start (span, name) true

/-- A name, or an arrow function whose only parameter it is. -/
private def identOrArrow (mayArrow : Bool) : Parser Expr := do
  let start ← position
  let plainAsync ← seesWord "async"
  let name ← nameText
  let span ← spanFrom start
  if mayArrow && plainAsync && !(← lineBreakBefore) && (← seesName) then
    let isTarget := (← scope).inLoopHead && (← seesWord "of") && (← peek).1 != .mark "=>"
    if isTarget then pure (.ident span name) else asyncArrow g start span
  else if mayArrow && !(← lineBreakBefore) && (← sees "=>") then
    singleParamArrow g start (span, name) false
  else pure (.ident span name)

/-- What the word `async` starts: a function, an arrow function, or a plain name. -/
private def asyncOperand (mayArrow : Bool) : Parser Expr := do
  let start ← position
  let (next, lineBreak) ← peek
  if next == .word "function" false && !lineBreak then functionExpr g
  else
    let generic ← if mayArrow && (← isTyped) && next == .mark "<" then
        attempt do
          advance
          genericAsyncArrow? g start
      else pure none
    match generic with
    | some arrow => pure arrow
    | none =>
      if mayArrow && next == .mark "(" && !lineBreak then
        advance
        parenthesized g mayArrow (some (← spanFrom start))
      else identOrArrow g mayArrow

/-- The number of faults in the flags of a regular expression: flags that there are not, and one
for flags that come twice. -/
private def flagFaults (flags : List Char) : Nat :=
  let unknown := flags.eraseDups.countP fun flag => !"dgimsuvy".toList.contains flag
  if flags.eraseDups.length = flags.length then unknown else unknown + 1

private def regExp (start : Nat) : Parser Expr := do
  split "/"
  modify fun s =>
    let (token, after) := s.after.regExp
    { s with token := token, after := after, span := ⟨start, after.offset⟩ }
  match ← token with
  | .bad fault =>
    modify fun s => { s with isStuck := true }
    fail fault
  | .regExp flags =>
    advance
    noteFaults (flagFaults flags.toList)
    pure (.compound (← spanFrom start) .literal [])
  | _ => fail .expressionExpected

private def literal (start : Nat) : Parser Expr := do
  advance
  pure (.compound (← spanFrom start) .literal [])

def primary : Parser Expr := do
  let start ← position
  let mayArrow := (← state).arrowStart == start
  match ← token with
  | .string value =>
    advance
    pure (.string (← spanFrom start) value)
  | .number _ | .bigInt _ => literal start
  | .mark "(" => parenthesized g mayArrow none
  | .mark "[" => arrayLiteral g
  | .mark "\x7b" => objectLiteral g
  | .mark "/" | .mark "/=" => regExp start
  | .template .. => templateLiteral g
  | .mark "#" =>
    advance
    let _ ← wordText
    pure (.compound (← spanFrom start) .privateName [])
  | .word "null" false | .word "true" false | .word "false" false => literal start
  | .word "this" false =>
    advance
    pure (.compound (← spanFrom start) .thisValue [])
  | .word "function" false => functionExpr g
  | .word "class" false => classExpr g
  | .word "async" false => asyncOperand g mayArrow
  | .word "let" false => identOrArrow g mayArrow
  | _ => if ← seesName then identOrArrow g mayArrow else fail .expressionExpected

/-- The call `import(…)`, also with the name of a phase, or `import.meta`. -/
private def importOperand (noCall : Bool) : Parser Expr := do
  let start ← position
  advance
  if ← eat "." then
    match ← wordText with
    | "meta" =>
      subscripts g start (.expr (.compound (← spanFrom start) .metaProperty [])) noCall false
    | "defer" | "source" => subscripts g start .importWord noCall false
    | _ => failUnexpected "meta"
  else subscripts g start .importWord noCall false

/-- Type arguments that a plain operand keeps: what follows does not make it a comparison. -/
private def instantiation? : Parser (Option (List String)) :=
  attempt do
    let types ← typeArguments g
    pure (if ← endsInstantiation then some types else none)

private def typeArgumentsOfCall? : Parser (Option (List String)) :=
  attempt do
    let types ← typeArguments g
    if ← sees "(" then pure (some types) else pure none

private def newTarget (start : Nat) : Parser Expr := do
  if ← eatWord "target" then
    let span ← spanFrom start
    noteFaultIf !(← scope).hasNewTarget
    subscripts g start (.expr (.compound span .metaProperty [])) true false
  else failUnexpected "target"

private def chainUnderMember : Expr → Bool
  | .member _ object _ => object.opensChain
  | _ => false

private def newOperand (start : Nat) : Parser Expr := do
  let imports ← seesWord "import"
  let callee ← g.run .newOrMember
  if callee.isArrow then pure callee
  else
    if !imports && (callee.opensChain || chainUnderMember callee) then
      failAt callee.span.start .constructorInChain
    let open_ ← seesOpen
    if (← isTyped) && open_ then
      let _ ← within (fun s => { s with keepsMarks := false }) (typeArgumentsOfCall? g)
    if ← sees "(" then
      let args ← arguments g
      let made := Expr.compound (← spanFrom start) .newInstance (.expr callee :: elementParts args)
      subscripts g start (.expr made) true false
    else pure (.compound (← spanFrom start) .newInstance [.expr callee])

/-- A plain operand with its type arguments and member accesses. -/
private def memberOperand (start : Nat) : Parser Expr := do
  let object ← primary g
  if object.isArrow then pure object
  else
    let typesStart ← position
    let types ← if (← isTyped) && (← sees "<") then instantiation? g else pure none
    let object ← match types with
      | some names => do
        let types := ⟨← spanFrom typesStart, names⟩
        pure (Expr.typed (← spanFrom start) .instantiation object [types])
      | none => pure object
    subscripts g start (.expr object) true false

/-- An operand with its member accesses, up to the first call; `new` with its arguments. -/
def newOrMember : Parser Expr :=
  within (fun s => { s with keepsMarks := true }) do
    let start ← position
    if ← eatWord "new" then
      if ← eat "." then newTarget g start else newOperand g start
    else if ← eatWord "super" then subscripts g start .superWord true false
    else if ← seesWord "import" then importOperand g true
    else memberOperand g start

/-- An operand with all its member accesses and calls. -/
def operand : Parser Expr := do
  let start ← position
  if (← scope).dialect.markup && (← sees "<") then g.run .markup
  else if ← eatWord "super" then subscripts g start .superWord false false
  else if ← seesWord "import" then importOperand g false
  else
    let callee ← g.run .newOrMember
    if callee.isArrow then pure callee
    else
      let open_ ← seesOpen
      if (← isTyped) && open_ then
        let _ ← typeArgumentsOfCall? g
      if ← sees "(" then
        let args ← arguments g
        let call := callOf (← spanFrom start) callee args false
        subscripts g start (.expr call) false false
      else pure callee

end Grammar

end SideEffectLint
