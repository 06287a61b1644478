import SideEffectLint.Grammar.Subscripts

/-!
Classes. Nothing in a class is linted, so a class is read as the pieces that it holds.
-/

namespace SideEffectLint

namespace Grammar

open SideEffectLint.Parser

variable (g : Grammar)

/-- What a class can implement: a name with its members and types. -/
private def isTypeReference : Expr → Bool
  | .ident .. | .member .. | .typed _ .instantiation .. => true
  | _ => false

private def heritageElement : Parser (List Part) := do
  let start ← position
  let name ← wordText
  let base ← subscripts g start (.expr (.ident (← spanFrom start) name)) true true
  noteFaultIf !(isTypeReference base)
  if ← (isTyped <&&> sees "<") then
    let _ ← typeArguments g
  pure [.expr base]

/-- The types after `implements`, or after the `extends` of an interface. -/
def heritage : Parser (List (List Part)) := do
  let stops : Parser Bool := do
    pure ((← sees "\x7b") || (← seesWord "implements") || (← seesWord "extends"))
  delimited stops (heritageElement g)

private def superClass : Parser (List Part) := do
  let base ← g.run .operand
  if ← (isTyped <&&> sees "<") then
    let _ ← typeArguments g
  pure [.expr base]

/-- What follows one of the words, which should not come again. -/
private def again (word : String) (p : Parser (List Part)) : Parser (List Part) := do
  if ← eatWord word then
    noteFault
    p
  else pure []

/-- In the typed dialects, more classes after the super class, of which there should be none. -/
private def moreClasses : Parser (List Part) := do
  if ← (isTyped <&&> eat ",") then
    let more ← heritage g
    noteFaults more.length
    pure more.flatten
  else pure []

private def ancestry : Parser (List Part) := do
  let first ← if ← eatWord "extends" then
      let base ← superClass g
      pure (base ++ (← moreClasses g))
    else pure []
  let second ← again "extends" (superClass g)
  if ← isTyped then
    let types : Parser (List Part) := List.flatten <$> heritage g
    let implemented ← if ← eatWord "implements" then types else pure []
    let more ← again "implements" types
    let last ← again "extends" (superClass g)
    pure (first ++ second ++ implemented ++ more ++ last)
  else pure (first ++ second)

private def keyParts : Key → List Part
  | .computed _ value => [.expr value]
  | _ => []

private def classKey : Parser Key := do
  let start ← position
  if ← sees "#" then
    let name ← privateName
    let span ← spanFrom start
    noteFaultIf (name == "constructor")
    pure (.privateName span name)
  else key g

private def isConstructor : Key → Bool
  | .named _ name | .string _ name => name == "constructor"
  | _ => false

private def startsMethod : Parser Bool := do
  pure ((← sees "(") || ((← isTyped) && (← sees "<")))

/-- A property ends after its key, or goes on with its type or value. -/
private def startsProperty (lineEnds : Bool) : Parser Bool := do
  if (← isTyped) && (← seesAny ["!", ":"]) then pure true
  else if ← seesAny ["=", "\x7d"] then pure true
  else if lineEnds then seesEnd
  else sees ";"

/-- What the words in front of a member say about it. -/
private structure Modifiers where
  isDeclared : Bool := false
  hasAccess : Bool := false
  isStatic : Bool := false
  isAbstract : Bool := false
  isReadonly : Bool := false
  isAccessor : Bool := false

private def isPrivate : Key → Bool
  | .privateName .. => true
  | _ => false

private def classMethod (m : Modifiers) (key : Key) (isAsync isGenerator : Bool) :
    Parser (List Part) := do
  let tail ← methodTail g isAsync isGenerator
  noteFaultIf (if isPrivate key then m.hasAccess else m.isAbstract && !tail.body.isMissing)
  pure (keyParts key ++ tail.parts)

/-- In the typed dialects, a question mark after a key. -/
private def eatOptional : Parser Bool :=
  isTyped <&&> eat "?"

/-- The value of a field after its type. -/
private def fieldValue? : Parser (Option Expr) :=
  within (fun s => { s with inField := true }) do
    let value ← if ← eat "=" then some <$> assignmentWithIn g else pure none
    unless ← eatEnd do noteFault
    pure value

private def classField (m : Modifiers) (key : Key) (isOptional : Bool) : Parser (List Part) := do
  if isConstructor key then failAt key.span.start .propertyNamedConstructor
  if isPrivate key then
    noteFaultIf m.isDeclared
    noteFaultIf m.isAbstract
  if (← isTyped) && !isOptional then
    let _ ← eat "!"
  let _ ← typeNote? g
  let value ← fieldValue? g
  unless m.isAccessor do
    noteFaultIf (if isPrivate key then m.hasAccess else m.isAbstract && value.isSome)
  pure (keyParts key ++ (value.map Part.expr).toList)

private def named (start : Nat) (name : String) : Parser Key := do
  pure (.named (← spanFrom start) name)

/-- A member whose key is a word that may also modify a member, if what follows makes it one. -/
private def wordMember? (m : Modifiers) (start : Nat) (word : String) (lineEnds : Bool) :
    Parser (Option (List Part)) := do
  let key ← named start word
  if ← startsMethod then some <$> classMethod g m key false false
  else if (← startsProperty lineEnds) || ((← isTyped) && (← sees "?")) then
    some <$> classField g m key (← eatOptional)
  else pure none

private def staticBlock : Parser (List Part) := do
  let (span, statements) ← within
    (fun s => { s with inStaticBlock := true, inField := true }) (block g false)
  pure [.stmt (.block span statements)]

/-- A method after the word `async`. -/
private def asyncMember (m : Modifiers) (start : Nat) : Parser (List Part) := do
  if ← isTyped then
    let _ ← modifier? ["override"]
  let isGenerator ← eat "*"
  let key ← classKey g
  if isConstructor key then failAt key.span.start .asyncConstructor
  if m.isReadonly then failAt start .readonlyMethod
  let _ ← eatOptional
  classMethod g m key true isGenerator

/-- A generator after its asterisk. It should be no constructor. -/
private def generatorMember (m : Modifiers) (start : Nat) : Parser (List Part) := do
  let key ← classKey g
  if m.isReadonly then failAt start .readonlyMethod
  noteFaultIf (isConstructor key)
  classMethod g m key false true

/-- What follows a key that starts no method. The key may be a word in front of the real one. -/
private def afterKey (m : Modifiers) (start : Nat) (key : Key) (isOptional : Bool) :
    Parser (List Part) := do
  let isAccessor ← match key with
    | .named _ "get" | .named _ "set" =>
      pure (!(← startsProperty false) && !((← lineBreakBefore) && (← sees "*")))
    | _ => pure false
  if !isAccessor && (← startsProperty true) then classField g m key isOptional
  else
    let isAsync ← match key with
      | .named _ "async" => not <$> lineBreakBefore
      | _ => pure false
    if isAsync then asyncMember g m start
    else if isAccessor then
      let key ← classKey g
      noteFaultIf m.isReadonly
      noteFaultIf (isConstructor key)
      classMethod g m key false false
    else failUnexpected "* for generator, private key, identifier or async"

/-- In the typed dialects, a word that modifies a member and opens no block. -/
private def memberModifier? : Parser (Option String) := do
  if !(← isTyped) then pure none
  else if (← seesWord "static") && (← peek).1 == .mark "\x7b" then pure none
  else modifier? ["abstract", "readonly", "override", "static"]

/-- A member as the pieces that it holds. -/
private structure Member where
  parts : List Part
  /-- A constructor with a body. -/
  isConstructor : Bool := false

/-- A constructor after its key, which should be neither static nor abstract. -/
private def constructor (m : Modifiers) : Parser Member := do
  let tail ← constructorTail g
  noteFaultIf m.isStatic
  noteFaultIf m.isAbstract
  pure ⟨tail.parts, !tail.body.isMissing⟩

private def other (p : Parser (List Part)) : Parser Member := do
  pure { parts := ← p }

/-- A member with a key of its own, after the words that modify it. -/
private def keyedMember (m : Modifiers) (start : Nat) : Parser Member := do
  if ← eat "*" then other (generatorMember g m start)
  else
    let keyStart ← position
    let key ← if m.isReadonly && (← seesAny ["!", ":"]) then named keyStart "readonly"
      else classKey g
    let isOptional ← eatOptional
    if ← startsMethod then
      if m.isReadonly then failAt start .readonlyMethod
      if isConstructor key then constructor g m else other (classMethod g m key false false)
    else other (afterKey g m start key isOptional)

private def modifiedMember (m : Modifiers) (start : Nat) (isStatic : Bool) : Parser Member := do
  let words ← collect memberModifier?
  let changesMember := words.contains "abstract" || words.contains "override"
  let isAccessor ← pure changesMember <&&> eatWord "accessor"
  let m := { m with
    isStatic := isStatic
    isAbstract := words.contains "abstract"
    isReadonly := words.contains "readonly"
    isAccessor := m.isAccessor || isAccessor }
  if (isStatic || words.contains "static") && (← sees "\x7b") then other (staticBlock g)
  else if (← seesWord "static") && (← peek).1 == .mark "\x7b" then
    advance
    other (staticBlock g)
  else
    let mayBeSignature := !changesMember && !m.hasAccess
    match ← if mayBeSignature && (← isTyped) then indexSignature? g else pure none with
    | some _ => pure { parts := [] }
    | none => keyedMember g m start

/-- A member from the word `static` or `accessor`, if one of them is there, or else what follows. -/
private def staticMember (m : Modifiers) (start : Nat) : Parser Member := do
  let staticStart ← position
  let isStatic ← eatWord "static"
  let accessorStart ← position
  let isAccessor ← isTyped <&&> eatWord "accessor"
  let m := { m with isAccessor := isAccessor }
  let asStatic ← if isStatic && !isAccessor && !(← sees "\x7b") then
      wordMember? g m staticStart "static" false
    else pure none
  let asAccessor ← if isAccessor then wordMember? g m accessorStart "accessor" true else pure none
  match asStatic.or asAccessor with
  | some parts => pure { parts := parts }
  | none => modifiedMember g m start isStatic

private def classMember : Parser Member := do
  let start ← position
  let typed ← isTyped
  let declared ← pure typed <&&> eatWord "declare"
  let access ← if typed then modifier? accessWords else pure none
  let declared ← pure declared <||> (pure typed <&&> eatWord "declare")
  let m : Modifiers := { hasAccess := (access.map isAccess).getD false }
  match ← if declared then wordMember? g m start "declare" true else pure none with
  | some parts => pure { parts := parts }
  | none => staticMember g { m with isDeclared := declared } start

/-- The members of a class, which should have one constructor. -/
private def classBody : Parser (List Part) := do
  expect "\x7b"
  let members ← repeating ([] : List Member) fun acc => do
    if ← sees "\x7d" then pure (.inr acc.reverse)
    else if ← eat ";" then pure (.inl acc)
    else
      let member ← classMember g
      let inAmbient := (← scope).inAmbient
      noteFaultIf (member.isConstructor && acc.any (·.isConstructor) && !inAmbient)
      pure (.inl (member :: acc))
  expect "\x7d"
  pure (members.flatMap (·.parts))

/-- Words for types that should name no class or interface. -/
def typeWords : List String :=
  ["any", "bigint", "boolean", "intrinsic", "never", "null", "number", "object", "string", "symbol",
   "unknown", "void"]

private def className (isNeeded : Bool) : Parser (Option String) := do
  if isNeeded && (← seesWord "let") then failReservedLet
  let named ← pure isNeeded <||> seesName
  if named then
    let name ← declaredName
    noteFaultIf ((← isTyped) && typeWords.contains name)
    pure (some name)
  else pure none

/-- A class from its keyword: its name and pieces. All of it is strict. -/
def classTail (needsName : Bool) : Parser (Option String × List Part) :=
  within (fun s => { s with strict := true }) do
    expectWord "class"
    let name ← className needsName
    if ← isTyped then
      let _ ← typeParameters? g
    let base ← ancestry g
    let members ← within (fun s => { s with allowsSuper := true, hasNewTarget := true })
      (classBody g)
    pure (name, base ++ members)

def classExpr : Parser Expr := do
  let start ← position
  let (_, parts) ← classTail g false
  pure (.compound (← spanFrom start) .classValue parts)

end Grammar

end SideEffectLint
