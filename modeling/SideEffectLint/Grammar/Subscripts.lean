import SideEffectLint.Grammar.Objects

/-!
What may follow an operand: member accesses, calls, optional chains and tagged templates.
-/

namespace SideEffectLint

namespace Token

/-- How tightly an operator between two operands binds; words such as `in` are looked at apart. -/
def precedence? : Token → Option Nat
  | .mark text =>
    match text with
    | "||" | "??" => some 1
    | "&&" => some 2
    | "|" => some 3
    | "^" => some 4
    | "&" => some 5
    | "==" | "!=" | "===" | "!==" => some 6
    | "<" | "<=" | ">" | ">=" => some 7
    | "<<" | ">>" | ">>>" => some 8
    | "+" | "-" => some 9
    | "*" | "/" | "%" => some 10
    | "**" => some 11
    | _ => none
  | _ => none

def isAssignment : Token → Bool
  | .mark text =>
    ["=", "+=", "-=", "*=", "/=", "%=", "<<=", ">>=", ">>>=", "&=", "|=", "^=", "**=", "&&=", "||=",
     "??="].contains text
  | _ => false

def startsExpression : Token → Bool
  | .mark text =>
    ["!", "(", "[", "\x7b", "++", "--", "~", "+", "-", "/", "/=", "<", "#"].contains text
  | .word text escaped =>
    escaped || !(text == "let" || Token.reserved.contains text) ||
    ["this", "null", "true", "false", "function", "class", "new", "delete", "typeof", "void",
     "super", "import"].contains text
  | .string _ | .number _ | .bigInt _ | .template .. => true
  | _ => false

end Token

namespace Expr

def isArrow : Expr → Bool
  | arrow .. => true
  | _ => false

def isChain : Expr → Bool
  | chainMember .. | chainCall .. => true
  | _ => false

/-- As `isChain`, also under assertions that a value is not null. -/
def continuesChain : Expr → Bool
  | typed _ .nonNull operand _ => operand.continuesChain
  | e => e.isChain

/-- The link that is written `?.` itself. -/
def opensChain : Expr → Bool
  | chainMember _ _ _ true | chainCall _ _ _ true => true
  | _ => false

end Expr

inductive Head where
  | expr (value : Expr)
  | superWord
  | importWord

namespace Grammar

open SideEffectLint.Parser

variable (g : Grammar)

private def memberOf (span : Span) (object : Expr) (key : Key) (optional : Bool) : Expr :=
  if optional || object.continuesChain then .chainMember span object key optional
  else .member span object key

/-- A call, which goes on a chain it stands in. -/
def callOf (span : Span) (callee : Expr) (args : List Element) (optional : Bool) : Expr :=
  if optional || callee.continuesChain then .chainCall span callee args optional
  else .call span callee args

def elementParts (elements : List Element) : List Part :=
  elements.filterMap fun
    | .hole => none
    | .plain e | .spread _ e => some (.expr e)

/-- An arrow function `async <T>(x) => …` from its type parameters. -/
def genericAsyncArrow? (start : Nat) : Parser (Option Expr) := do
  let head ← attempt do
    arrowTypeParameters g
    expect "("
    let params ← g.run .params
    expect ")"
    if ← sees ":" then
      let _ ← resultType g ":"
    expect "=>"
    pure (some params)
  match head with
  | none => pure none
  | some params =>
    let body ← arrowBody g true params
    pure (some (.arrow (← spanFrom start) params body))

/-- A template after its tag, which should be no link of an optional chain. -/
private def taggedTemplate (start : Nat) (tag : Expr) : Parser Expr := do
  let parts ← templateParts g true
  noteFaultIf tag.isChain
  pure (.compound (← spanFrom start) .taggedTemplate (.expr tag :: parts))

private def wordStartsOperand (text : String) : Parser Bool := do
  if text == "import" then
    match (← peek).1 with
    | .mark next => pure (["(", "<", "."].contains next)
    | _ => pure false
  else
    let isValue := ["this", "null", "super", "true", "false", "function", "class", "new", "delete",
      "typeof", "void", "await", "yield"].contains text
    pure isValue <||> seesName

/-- An expression may start here, if not with an object or a regular expression. -/
private def startsOperand : Parser Bool := do
  match ← token with
  | .mark "#" => pure (← peek).1.isWord
  | .mark text => pure (["(", "[", "+", "-", "~", "!", "++", "--", "<"].contains text)
  | .word text false => wordStartsOperand text
  | .word _ true | .string _ | .number _ | .bigInt _ | .template .. => pure true
  | _ => pure false

/-- What follows type arguments does not make them a comparison. -/
def endsInstantiation : Parser Bool := do
  let goesOn := (← seesAny ["<", ">", "=", ">>", ">=", "+", "-", "("]) || (← seesTemplate)
  let ends := (← lineBreakBefore) || (← token).precedence?.isSome || !(← startsOperand)
  pure (!goesOn && ends)

/-- Type arguments after an expression, with what they lead to: the expression, and whether more
subscripts may follow. -/
private def typeArguments? (start : Nat) (e : Expr) (noCall : Bool) :
    Parser (Option (Expr × Bool)) :=
  attempt do
    let arrow ← match e with
      | .ident s "async" =>
        if !noCall && (← state).arrowStart == s.start then genericAsyncArrow? g start else pure none
      | _ => pure none
    match arrow with
    | some arrow => pure (some (arrow, true))
    | none =>
      let open_ ← position
      let names ← typeArguments g
      let types := ⟨← spanFrom open_, names⟩
      if !noCall && (← sees "(") then
        let args ← arguments g
        let span ← spanFrom start
        pure (some (if e.isChain then .chainCall span e args false else .call span e args, true))
      else if ← seesTemplate then
        let tagged ← taggedTemplate g start e
        pure (some (tagged, true))
      else if (← sees "=") || (← seesWord "as") || (← seesWord "satisfies") then
        pure (some (.typed (← spanFrom start) .instantiation e [types], false))
      else if ← endsInstantiation then
        pure (some (.typed (← spanFrom start) .instantiation e [types], true))
      else failUnexpected "( or `"

private def refuseSuper (start : Nat) (optional noCall : Bool) : Parser Unit := do
  if !(← scope).allowsSuper && !(← isTyped) then failAt start .invalidSuper
  if optional then failAt start (if noCall then .invalidSuperCall else .invalidSuper)

private def computedMember (start : Nat) (head : Head) (optional noCall : Bool) : Parser Expr := do
  let keyStart ← position
  expect "["
  let value ← expressionWithIn g
  expect "]"
  let span ← spanFrom start
  let key := Key.computed (← spanFrom keyStart) value
  match head with
  | .expr e => pure (memberOf span e key optional)
  | .superWord =>
    refuseSuper start optional noCall
    pure (.superMember span key)
  | .importWord => fail .invalidImport

private def callHead (start : Nat) (head : Head) (optional noCall : Bool) : Parser Expr := do
  let args ← arguments g
  let span ← spanFrom start
  match head with
  | .expr e => pure (callOf span e args optional)
  | .superWord =>
    if optional then fail (if noCall then .invalidSuperCall else .invalidSuper)
    pure (.compound span .superCall (elementParts args))
  | .importWord =>
    if optional then fail .invalidImport
    if args.isEmpty || args.length > 2 then failAt start .importArity
    pure (.compound span .importCall (elementParts args))

private def namedMember (start : Nat) (head : Head) (optional noCall : Bool) : Parser Expr := do
  let keyStart ← position
  let isPrivate ← sees "#"
  let name ← if isPrivate then privateName else wordText
  let keySpan ← spanFrom keyStart
  let key := if isPrivate then Key.privateName keySpan name else Key.named keySpan name
  let span ← spanFrom start
  match head with
  | .expr e => pure (memberOf span e key optional)
  | .superWord =>
    refuseSuper start optional noCall
    if isPrivate then fail .invalidSuperCall
    pure (.superMember span key)
  | .importWord =>
    if name == "meta" && !isPrivate then pure (.compound span .metaProperty [])
    else failUnexpected "meta"

private def isImport : Head → Bool
  | .importWord => true
  | _ => false

/-- In the typed dialects, what only types make a subscript of an expression; `none` in the first
part if nothing does. -/
private def typedSubscript? (start : Nat) (noCall : Bool) (e : Expr) :
    Parser (Option (Expr × Bool)) := do
  if ← (not <$> lineBreakBefore <&&> eat "!") then
    pure (some (.typed (← spanFrom start) .nonNull e [], true))
  else if ← sees "<" then typeArguments? g start e noCall
  else pure none

private def eatOptionalMark : Parser Bool := do
  if (← sees "?") && (← peek).1 == .mark "." then
    advance
    advance
    pure true
  else pure false

/-- One subscript: the expression so far, and whether to go on. -/
private def subscript (start : Nat) (noCall noComputed : Bool) (head : Head) :
    Parser (Head ⊕ Expr) := do
  let typed ← isTyped
  let applied ← match head with
    | .expr e => if typed then typedSubscript? g start noCall e else pure none
    | _ => pure none
  match applied with
  | some (e, true) => pure (.inl (.expr e))
  | some (e, false) => pure (.inr e)
  | none =>
    let optional ← eatOptionalMark
    if optional && typed && (← seesOpen) then
      let _ ← typeArguments g
      unless ← sees "(" do failExpected "("
    let on (e : Expr) : Head ⊕ Expr := .inl (.expr e)
    let mayCall := optional || !noCall || isImport head
    if !noComputed && (← sees "[") then on <$> computedMember g start head optional noCall
    else if mayCall && (← sees "(") then on <$> callHead g start head optional noCall
    else if optional then on <$> namedMember start head optional noCall
    else if ← eat "." then on <$> namedMember start head optional noCall
    else
      match head with
      | .expr e =>
        if ← seesTemplate then on <$> taggedTemplate g start e else pure (.inr e)
      | .superWord => fail (if noCall then .invalidSuperCall else .invalidSuper)
      | .importWord => fail .invalidImport

/-- All subscripts that follow; calls and computed keys can be left out. -/
def subscripts (start : Nat) (head : Head) (noCall noComputed : Bool) : Parser Expr :=
  repeating head (subscript g start noCall noComputed)

end Grammar

end SideEffectLint
