import SideEffectLint.Grammar.Types

/-!
Patterns of declarations and parameters, and the keys of properties.
-/

namespace SideEffectLint

namespace Pattern

/-- The pattern with a type, where it can have one. -/
def withType (p : Pattern) (type : Option TypeExpr) : Pattern :=
  match p with
  | ident s name _ => ident s name type
  | array s elements _ => array s elements type
  | object s members _ => object s members type
  | rest s argument _ => rest s argument type
  | p => p

end Pattern

namespace Grammar

open SideEffectLint.Parser

variable (g : Grammar)

def allowingIn {α : Type} (p : Parser α) : Parser α :=
  within (fun s => { s with allowsIn := true }) p

def assignmentWithIn : Parser Expr :=
  allowingIn (g.run .assignment)

/-- An expression, or several with commas between them. -/
def expression : Parser Expr := do
  let start ← position
  let first ← g.run .assignment
  if ← sees "," then
    let rest ← collect do
      if ← eat "," then some <$> g.run .assignment else pure none
    pure (.compound (← spanFrom start) .sequence ((first :: rest).map .expr))
  else pure first

def expressionWithIn : Parser Expr :=
  allowingIn (expression g)

/-- In the typed dialects, expressions after the first one of a computed key. -/
private def keysTail : Parser Unit := do
  let more ← collect do
    if ← eat "," then some <$> assignmentWithIn g else pure none
  noteFaultIf !more.isEmpty

/-- The key of a property. -/
def key : Parser Key := do
  let start ← position
  match ← token with
  | .string value =>
    advance
    pure (.string (← spanFrom start) value)
  | .number text | .bigInt text =>
    advance
    pure (.number (← spanFrom start) text)
  | .word .. =>
    let name ← wordText
    pure (.named (← spanFrom start) name)
  | .mark "[" =>
    advance
    let value ← assignmentWithIn g
    if ← isTyped then keysTail g
    expect "]"
    pure (.computed (← spanFrom start) value)
  | _ =>
    failUnexpected "identifier, string literal, numeric literal or [ for the computed key"

/-- The `=` and value after a pattern, if they are there. -/
private def withValue? (start : Nat) (p : Pattern) : Parser Pattern := do
  if ← eat "=" then
    let value ← assignmentWithIn g
    pure (.withDefault (← spanFrom start) p value)
  else pure p

private def bindingElement : Parser Pattern := do
  let start ← position
  let p ← withValue? g start (← g.run .binding)
  match p with
  | .withDefault .. => noteFaultIf (← scope).inAmbient
  | _ => pure ()
  pure p

private def isRest : Pattern → Bool
  | .rest .. => true
  | _ => false

private def arrayBinding : Parser Pattern := do
  let start ← position
  expect "["
  let elements ← repeating [] fun acc => do
    if ← sees "]" then pure (.inr acc.reverse)
    else if ← eat "," then pure (.inl (.hole :: acc))
    else
      noteFaultIf (acc.any isRest)
      let start ← position
      let p ← if ← eat "..." then
          let argument ← g.run .binding
          pure (.rest (← spanFrom start) argument none)
        else bindingElement g
      unless ← sees "]" do expect ","
      pure (.inl (p :: acc))
  expect "]"
  if (← scope).inAmbient then
    let _ ← eat "?"
  pure (.array (← spanFrom start) elements none)

private def memberBinding : Parser PatternMember := do
  let start ← position
  if ← eat "..." then
    let argument ← g.run .binding
    pure (.rest (← spanFrom start) argument)
  else
    let key ← key g
    if ← eat ":" then
      let value ← bindingElement g
      pure (.keyValue key value)
    else
      match key with
      | .named s name =>
        if ← eat "=" then
          let value ← assignmentWithIn g
          pure (.shorthand ⟨s.start, (← spanFrom start).stop⟩ name (some value))
        else
          noteFaultIf ((← scope).reserves (← state).inModule name)
          pure (.shorthand s name none)
      | _ => failUnexpected "an identifier"

/-- A rest member at the end must bind one name. -/
private def lastIsName (members : List PatternMember) : Bool :=
  match members.getLast? with
  | some (.rest _ (.ident ..)) => true
  | some (.rest ..) => false
  | _ => true

/-- The number of rest members that something follows, if only a comma. -/
private def misplacedRests (endsWithComma : Bool) : List PatternMember → Nat
  | [] => 0
  | [.rest ..] => if endsWithComma then 1 else 0
  | .rest .. :: rest => 1 + misplacedRests endsWithComma rest
  | _ :: rest => misplacedRests endsWithComma rest

private def objectBinding : Parser Pattern := do
  let start ← position
  expect "\x7b"
  let (members, endsWithComma) ← repeating (([] : List PatternMember), false) fun (acc, comma) => do
    if ← eat "\x7d" then pure (.inr (acc.reverse, comma))
    else
      let m ← memberBinding g
      let last ← sees "\x7d"
      unless last do expect ","
      pure (.inl (m :: acc, !last))
  unless lastIsName members do fail .restNeedsName
  noteFaults (misplacedRests endsWithComma members)
  if (← scope).inAmbient then
    let _ ← eat "?"
  pure (.object (← spanFrom start) members none)

/-- A pattern that declares names. -/
def binding : Parser Pattern := do
  let start ← position
  match ← token with
  | .mark "[" => arrayBinding g
  | .mark "\x7b" => objectBinding g
  | .word .. =>
    let name ← declaredName
    pure (.ident (← spanFrom start) name none)
  | _ =>
    refuseBad
    failUnexpected "yield, an identifier, [ or \x7b"

private def isOptionalShape : Pattern → Bool
  | .ident .. | .array .. | .object .. => true
  | _ => false

/-- The parameter has a default value. -/
def hasValue : Pattern → Bool
  | .withDefault .. => true
  | _ => false

/-- One parameter with its type and default value, which stands before the type or after it. -/
private def param : Parser Pattern := do
  let hasAccess ← eatAccess
  let start ← position
  let p ← bindingElement g
  let optional ← isTyped <&&> eat "?"
  let fits := isOptionalShape p
  if optional && !fits && !(← scope).inAmbient then
    failAt (← state).lastStop .bindingCannotBeOptional
  let type ← if ← isTyped then typeNote? g else pure none
  noteFaultIf (type.isSome && hasValue p)
  let p := p.withType type
  let p ← if ← eat "=" then
      noteFaultIf (optional && fits)
      let value ← g.run .assignment
      noteFaultIf (← scope).inAmbient
      pure (.withDefault (← spanFrom start) p value)
    else pure p
  noteFaultIf hasAccess
  pure p

private def restParam (start : Nat) (mayHaveValue : Bool) : Parser Pattern := do
  let first ← position
  let p ← g.run .binding
  let p ← if ← (pure mayHaveValue <&&> eat "=") then
      let value ← g.run .assignment
      noteFault
      pure (.withDefault (← spanFrom first) p value)
    else pure p
  let type ← if ← isTyped then typeNote? g else pure none
  let rest := Pattern.rest (← spanFrom start) p type
  if ← (pure mayHaveValue <&&> isTyped <&&> eat "?") then noteFault
  pure rest

private def paramList {α : Type} (pattern : α → Pattern) (rest : Nat → Parser α) (one : Parser α) :
    Parser (List α) :=
  repeating [] fun acc => do
    if ← sees ")" then pure (.inr acc.reverse)
    else
      noteFaultIf (acc.any fun p => isRest (pattern p))
      let start ← position
      let p ← if ← eat "..." then rest start else one
      unless ← sees ")" do expect ","
      pure (.inl (p :: acc))

/-- Parameters up to their closing parenthesis, which is left. -/
def params : Parser (List Pattern) :=
  paramList id (fun start => restParam g start true) (param g)

private def isFieldShape : Pattern → Bool
  | .ident .. | .withDefault .. => true
  | _ => false

/-- Words in front of a class member or constructor parameter. -/
def accessWords : List String :=
  ["public", "protected", "private", "in", "out"]

/-- The word tells who may reach a member. -/
def isAccess (word : String) : Bool :=
  ["public", "protected", "private"].contains word

/-- A parameter of a constructor. In the typed dialects words in front can make it a field. -/
structure ConstructorParam where
  pattern : Pattern
  isField : Bool

private def constructorParam : Parser ConstructorParam := do
  if ← isTyped then
    let access ← modifier? accessWords
    let override ← modifier? ["override"]
    let readonly ← modifier? ["readonly"]
    let start ← position
    let p ← param g
    let isField := (access.map isAccess).getD false || override.isSome || readonly.isSome
    if isField && !isFieldShape p then failAt start .fieldIsPattern
    pure ⟨p, isField⟩
  else
    let p ← param g
    pure ⟨p, false⟩

private def constructorRest (start : Nat) : Parser ConstructorParam := do
  let p ← restParam g start false
  pure ⟨p, false⟩

/-- Parameters of a constructor up to their closing parenthesis. -/
def constructorParams : Parser (List ConstructorParam) :=
  paramList ConstructorParam.pattern (constructorRest g) (constructorParam g)

end Grammar

end SideEffectLint
