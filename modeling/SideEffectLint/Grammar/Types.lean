import SideEffectLint.Grammar.Names

/-!
Type syntax. Each reader gives the names that the type refers to.
-/

namespace SideEffectLint

namespace Grammar

open SideEffectLint.Parser

variable (g : Grammar)

private def names (parts : List (List String)) : List String :=
  parts.flatten

/-- An opening angle bracket, also as the first half of a shift. -/
def seesOpen : Parser Bool :=
  seesAny ["<", "<<"]

/-- Reads in a type, where angle brackets stand for themselves. -/
def inType {α : Type} (p : Parser α) : Parser α :=
  within (fun s => { s with inType := true }) p

/-- Names with dots between them, which `part` reads. A dot that no name follows ends them. -/
private def dotted (part : Parser String) : Parser (List String) := do
  let first ← wordText
  noteFaultIf (first == "void")
  repeating [first] fun acc => do
    if ← eat "." then
      if (← token).isWord || (← sees "#") then
        let word ← part
        pure (.inl (word :: acc))
      else
        noteFault
        pure (.inr acc.reverse)
    else pure (.inr acc.reverse)

/-- A name with dots whose parts can be any words. -/
private def typeName : Parser (List String) :=
  dotted wordText

/-- A name with dots that stands for a value or namespace. -/
def entityName : Parser (List String) :=
  dotted partText

def typeArguments : Parser (List String) := do
  let types ← inType do
    if ← sees "<<" then split "<"
    expect "<"
    delimited (sees ">") (g.run .type)
  expect ">"
  pure (names types)

/-- Type arguments within a type, where marks are never kept whole. -/
private def argumentsInType : Parser (List String) :=
  within (fun s => { s with keepsMarks := false }) (typeArguments g)

private def typeAfterMark? (text : String) : Parser (List String) := do
  if ← eat text then g.run .type else pure []

private structure TypeParameter where
  names : List String
  hasBound : Bool
  /-- Where it ends. -/
  stop : Nat

private def typeParameter : Parser TypeParameter := do
  let words := ["public", "private", "protected", "readonly", "abstract", "const", "override", "in",
    "out"]
  let _ ← collect (modifier? words)
  let name ← wordText
  let hasBound ← eatWord "extends"
  let bound ← if hasBound then g.run .type else pure []
  let filler ← typeAfterMark? g "="
  pure ⟨name :: bound ++ filler, hasBound, (← state).lastStop⟩

private def typeParameterList : Parser (List TypeParameter) :=
  inType do
    unless ← sees "<" do failUnexpected "< (jsx tag start)"
    advance
    let params ← delimited (sees ">") (typeParameter g)
    expect ">"
    pure params

def typeParameters : Parser (List String) := do
  let params ← typeParameterList g
  pure (names (params.map (·.names)))

/-- Type parameters where there should be none. -/
def strayTypeParameters : Parser Unit := do
  if ← sees "<" then
    let params ← typeParameterList g
    noteFaults (if params.isEmpty then 2 else params.length)

/-- Type parameters in front of an arrow function. In a dialect with markup they must not look like
a tag: there is more than one, or a bound, or something stands between the name and the bracket. -/
def arrowTypeParameters : Parser Unit := do
  let params ← typeParameterList g
  let stop := (← state).lastStop
  let looksLikeTag := match params with
    | [only] => !only.hasBound && stop = only.stop + 1
    | _ => false
  if (← scope).dialect.markup && looksLikeTag then failExpected "("

def typeParameters? : Parser (List String) := do
  if ← sees "<" then typeParameters g else pure []

/-- A result type after `mark`, which may say what a call tells about an argument. -/
def resultType (mark : String) : Parser (List String) :=
  inType do
    unless ← eat mark do fail (.expected mark (← token).kind)
    let asserts := (← seesWord "asserts") && (← peeksName)
    if asserts then advance
    let next ← peek
    let tells := (← seesName) && next.1 == .word "is" false && !next.2
    if tells then
      let name ← wordText
      advance
      let type ← g.run .type
      pure (name :: type)
    else if asserts then (fun name => [name]) <$> wordText
    else g.run .type

/-- A type after a colon, if there is a colon. -/
def typeNote? : Parser (Option TypeExpr) := do
  let start ← position
  if ← sees ":" then
    inType do
      advance
      let names ← g.run .type
      pure (some ⟨← spanFrom start, names⟩)
  else pure none

private def memberEnd : Parser Unit := do
  unless ← eat "," do expectEnd

private def isBindingShape : Pattern → Bool
  | .ident .. | .array .. | .object .. | .rest .. => true
  | _ => false

/-- Parameters of a signature up to its closing parenthesis; they have no default values. The answer
tells whether there are any. -/
private def signatureParams : Parser Bool := do
  let params ← g.run .params
  unless params.all isBindingShape do
    failUnexpected
      "an identifier, [ for an array pattern, \x7b for an object patter or ... for a rest pattern"
  expect ")"
  pure !params.isEmpty

private def signature : Parser (List String) := do
  let params ← typeParameters? g
  expect "("
  let _ ← signatureParams g
  let result ← if ← sees ":" then resultType g ":" else pure []
  memberEnd
  pure (params ++ result)

private def propertyKey : Parser Unit := do
  match ← token with
  | .mark "[" =>
    advance
    let _ ← g.run .assignment
    expect "]"
  | .string _ | .number _ =>
    let _ ← g.run .newOrMember
  | .mark "#" =>
    let _ ← privateName
    noteFault
  | _ =>
    let _ ← wordText

private def startsIndex : Parser Bool :=
  lookAhead do
    advance
    if ← seesName then
      advance
      seesAny [":", ","]
    else pure false

/-- An index signature such as `[key: string]: T`, with its end. -/
def indexSignature? : Parser (Option (List String)) := do
  if (← sees "[") && (← startsIndex) then
    expect "["
    let _ ← wordText
    if ← eat "," then noteFault else expect ":"
    let key ← g.run .type
    expect "]"
    let value ← typeNote? g
    memberEnd
    pure (some (key ++ (value.map (·.names)).getD []))
  else pure none

private def accessor? : Parser (Option (List String)) :=
  attempt do
    if ← eatWord "get" then
      propertyKey g
      expect "("
      expect ")"
      let type ← typeNote? g
      memberEnd
      pure (some ((type.map (·.names)).getD []))
    else
      expectWord "set"
      propertyKey g
      expect "("
      if ← signatureParams g then
        memberEnd
        pure (some [])
      else pure none

private def typeMember : Parser (List String) := do
  if ← seesAny ["(", "<"] then signature g
  else
    let next ← peek
    if (← seesWord "new") && (next.1 == .mark "(" || next.1 == .mark "<") then
      advance
      signature g
    else
      let readonly := (← modifier? ["readonly"]).isSome
      match ← indexSignature? g with
      | some names => pure names
      | none =>
        match ← if readonly then pure none else accessor? g with
        | some names => pure names
        | none =>
          propertyKey g
          let _ ← eat "?"
          if ← seesAny ["(", "<"] then
            if readonly then fail .readonlyMethod
            signature g
          else
            let type ← typeNote? g
            memberEnd
            pure ((type.map (·.names)).getD [])

/-- The members of an object type or interface, in braces. -/
def typeMembers : Parser (List String) := do
  expect "\x7b"
  let members ← collect do
    if ← sees "\x7d" then pure none else some <$> typeMember g
  expect "\x7d"
  pure (names members)

private def startsMapped : Parser Bool :=
  lookAhead do
    advance
    if ← seesAny ["+", "-"] then
      advance
      seesWord "readonly"
    else
      let _ ← eatWord "readonly"
      if !(← eat "[") then pure false
      else if !(← seesName) then pure false
      else
        advance
        seesWord "in"

private def mappedType : Parser (List String) := do
  expect "\x7b"
  if ← seesAny ["+", "-"] then
    advance
    expectWord "readonly"
  else
    let _ ← eatWord "readonly"
  expect "["
  let name ← wordText
  unless ← eatWord "in" do failUnexpectedKind "in"
  let domain ← g.run .type
  let renamed ← if ← eatWord "as" then g.run .type else pure []
  expect "]"
  if ← seesAny ["+", "-"] then
    advance
    expect "?"
  else
    let _ ← eat "?"
  let value ← typeNote? g
  expectEnd
  expect "\x7d"
  pure (name :: domain ++ renamed ++ (value.map (·.names)).getD [])

private def tupleLabel? : Parser (Option Unit) :=
  attempt do
    let _ ← eat "..."
    let _ ← wordText
    let _ ← eat "?"
    expect ":"
    pure (some ())

/-- Whether an element of a tuple type has to be there. -/
private inductive Presence where
  | required
  | optional
  | rest

private def tupleElement : Parser (Presence × List String) := do
  let _ ← tupleLabel?
  if ← eat "..." then (fun type => (.rest, type)) <$> g.run .type
  else
    let type ← g.run .type
    pure (if ← eat "?" then .optional else .required, type)

/-- An element that has to be there stands after one that need not. -/
private def isOutOfOrder : List Presence → Bool
  | [] => false
  | .optional :: rest => (rest.any fun | .required => true | _ => false) || isOutOfOrder rest
  | _ :: rest => isOutOfOrder rest

private def tupleType : Parser (List String) := do
  expect "["
  let elements ← delimited (sees "]") (tupleElement g)
  expect "]"
  if isOutOfOrder (elements.map (·.1)) then fail .requiredAfterOptional
  pure (names (elements.map (·.2)))

private def argumentsOnLine? : Parser (List String) := do
  if ← (not <$> lineBreakBefore <&&> seesOpen) then argumentsInType g else pure []

/-- The attributes of an imported type. -/
private def importOptions : Parser Unit := do
  advance
  expectWord "with"
  expect ":"
  let _ ← g.run .object
  let _ ← eat ","
  expect "\x7d"

/-- A type of another module, whose name should be a string. -/
private def importType : Parser (List String) := do
  advance
  expect "("
  refuseBad
  let isString ← seesString
  advance
  noteFaultIf !isString
  if ← eat "," then
    if ← sees "\x7b" then importOptions g
  expect ")"
  let qualifier ← if ← eat "." then entityName else pure []
  let args ← if ← sees "<" then argumentsInType g else pure []
  pure (qualifier ++ args)

private def queryType : Parser (List String) := do
  advance
  let name ← if ← seesWord "import" then importType g else typeName
  let args ← argumentsOnLine? g
  pure (name ++ args)

private def referenceType : Parser (List String) := do
  let hasAccess ← eatAccess
  let name ← typeName
  let args ← argumentsOnLine? g
  noteFaultIf hasAccess
  pure (name ++ args)

private def builtin : List String :=
  ["void", "null", "any", "boolean", "bigint", "never", "number", "object", "string", "symbol",
   "unknown", "undefined", "intrinsic"]

/-- What may be told about `this`. -/
private def thisPredicate : Parser (List String) := do
  if ← eatWord "is" then g.run .type else pure []

private def wanted : String :=
  "an identifier, void, yield, null, await, break, a string literal, a numeric literal, true, " ++
  "false, `, -, import, this, typeof, \x7b, [, ("

/-- A type that starts with a name, or with a word for a type. -/
private def namedType (text : String) : Parser (List String) := do
  let next := (← peek).1
  if text == "asserts" && next == .word "this" false then
    advance
    advance
    thisPredicate g
  else if builtin.contains text && next != .mark "." then
    advance
    pure []
  else referenceType g

private def simpleType : Parser (List String) := do
  match ← token with
  | .string _ | .number _ | .bigInt _ =>
    advance
    pure []
  | .word text false =>
    match text with
    | "true" | "false" =>
      advance
      pure []
    | "import" => importType g
    | "this" =>
      advance
      if ← lineBreakBefore then pure [] else thisPredicate g
    | "typeof" => queryType g
    | _ =>
      let isTypeName := ["void", "null", "break"].contains text ||
        !(text == "let" || Token.reserved.contains text)
      if isTypeName then namedType g text else failUnexpected wanted
  | .word _ true => referenceType g
  | .template false _ =>
    advance
    pure []
  | .template true _ => names <$> template false (g.run .type)
  | .mark "\x7b" => do if ← startsMapped then mappedType g else typeMembers g
  | .mark "[" => tupleType g
  | .mark "(" =>
    advance
    let inner ← g.run .type
    expect ")"
    pure inner
  | .mark "-" =>
    advance
    match ← token with
    | .number _ | .bigInt _ =>
      advance
      pure []
    | _ => failUnexpected "numeric literal or bigint literal"
  | _ => failUnexpected wanted

/-- A simple type with the brackets of array and index types after it. -/
private def arrayType : Parser (List String) := do
  let first ← simpleType g
  repeating first fun acc => do
    if ← (not <$> lineBreakBefore <&&> eat "[") then
      if ← eat "]" then pure (.inl acc)
      else
        let index ← g.run .type
        expect "]"
        pure (.inl (acc ++ index))
    else pure (.inr acc)

/-- A type that may follow `infer X extends`. -/
private def inferBound? : Parser (Option (List String)) :=
  attempt do
    expectWord "extends"
    let bound ← g.run .plainType
    if (← scope).withoutConditionalTypes || !(← sees "?") then pure (some bound) else pure none

/-- An array type, or what `keyof`, `unique`, `readonly` or `infer` makes of one. -/
def typeOperator : Parser (List String) := do
  match ← token with
  | .word "keyof" false | .word "unique" false | .word "readonly" false =>
    advance
    g.run .typeOperator
  | .word "infer" false =>
    advance
    let name ← wordText
    let bound ← inferBound? g
    pure (name :: bound.getD [])
  | _ =>
    let _ ← modifier? ["readonly"]
    arrayType g

private def joined (mark : String) (part : Parser (List String)) : Parser (List String) := do
  let _ ← eat mark
  let first ← part
  repeating first fun acc => do
    if ← eat mark then
      let next ← part
      pure (.inl (acc ++ next))
    else pure (.inr acc)

private def skipsParameter : Parser Bool := do
  let _ ← eatAccess
  if (← seesName) || (← seesWord "this") then
    advance
    pure true
  else if ← seesAny ["\x7b", "["] then
    recover (do let _ ← g.run .binding; pure true) fun _ _ => pure false
  else pure false

private def startsFunction : Parser Bool := do
  if ← sees "<" then pure true
  else if ← sees "(" then
    lookAhead do
      advance
      if ← seesAny [")", "..."] then pure true
      else if ← skipsParameter g then
        if ← seesAny [":", ",", "?", "="] then pure true
        else if ← eat ")" then sees "=>"
        else pure false
      else pure false
  else pure false

private def functionType : Parser (List String) := do
  let params ← typeParameters? g
  expect "("
  let _ ← signatureParams g
  let result ← resultType g "=>"
  pure (params ++ result)

/-- A type that is not conditional. -/
def plainType : Parser (List String) := do
  if ← startsFunction g then functionType g
  else
    let next ← peek
    if (← seesWord "abstract") && next.1 == .word "new" false then
      advance
      advance
      functionType g
    else if ← eatWord "new" then functionType g
    else joined "|" (joined "&" (g.run .typeOperator))

private def allowingConditional (allowed : Bool) (p : Parser (List String)) :
    Parser (List String) :=
  within (fun s => { s with withoutConditionalTypes := !allowed }) p

/-- A type. Within its brackets, types may be conditional again. -/
def type : Parser (List String) :=
  inType <| allowingConditional true do
    let checked ← g.run .plainType
    if ← (not <$> lineBreakBefore <&&> eatWord "extends") then
      let bound ← allowingConditional false (g.run .plainType)
      expect "?"
      let yes ← g.run .type
      expect ":"
      let no ← g.run .type
      pure (checked ++ bound ++ yes ++ no)
    else pure checked

/-- A type as a piece of the tree. -/
def typeExpr : Parser TypeExpr := do
  let start ← position
  let names ← g.run .type
  pure ⟨← spanFrom start, names⟩

end Grammar

end SideEffectLint
