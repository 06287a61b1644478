import SideEffectLint.Grammar.Markup

/-!
Declarations: functions, classes, variables, and those of the typed dialects.
-/

namespace SideEffectLint

namespace Declarator

/-- As pieces of a form that the lint does not look into. -/
def parts : Declarator → List Part
  | .mk _ pattern init => .pattern pattern :: (init.map Part.expr).toList

end Declarator

namespace ModuleItem

/-- As pieces of a form that the lint does not look into. -/
def parts : ModuleItem → List Part
  | stmt s | exportDecl _ s => [.stmt s]
  | exportDefaultFunction _ _ params body => body.parts params
  | other _ parts => parts

end ModuleItem

namespace Grammar

open SideEffectLint.Parser

variable (g : Grammar)

private def declaration (start : Nat) (parts : List Part) : Parser Stmt := do
  pure (.other (← spanFrom start) .declaration parts)

/-- A function from its keyword or from the `async` in front of it. -/
def namedFunction {α : Type} (name : Parser α) : Parser (α × FunctionTail) := do
  let isAsync ← eatWord "async"
  expectWord "function"
  let isGenerator ← eat "*"
  let name ← name
  let tail ← within (fun s => { s with allowsSuper := false }) (functionTail g isAsync isGenerator)
  pure (name, tail)

/-- A function declaration, which counts from `start`. -/
def functionDecl (start : Nat) : Parser Stmt := do
  let (name, tail) ← namedFunction g declaredName
  pure (.function (← spanFrom start) name tail.params tail.body)

def classDecl (start : Nat) : Parser Stmt := do
  let (_, parts) ← classTail g true
  declaration start parts

private def loopWord : Parser Bool := do
  pure ((← seesWord "in") || (← seesWord "of"))

private def declarator (inLoop isConst mayBeLet : Bool) : Parser Declarator := do
  let start ← position
  if !mayBeLet && (← seesWord "let") then failReservedLet
  let p ← g.run .binding
  let isIdent := match p with
    | .ident .. => true
    | _ => false
  let typed ← isTyped
  if typed && isIdent then
    let _ ← eat "!"
  let type ← if typed then typeNote? g else pure none
  let p := p.withType type
  if inLoop && (← loopWord) then pure (.mk (← spanFrom start) p none)
  else if ← eat "=" then
    let value ← g.run .assignment
    pure (.mk (← spanFrom start) p (some value))
  else
    let inAmbient := (← scope).inAmbient
    let lacksValue := isConst && !inLoop && !inAmbient
    unless inAmbient || lacksValue || isIdent do fail .destructuringWithoutValue
    noteFaultIf lacksValue
    pure (.mk (← spanFrom start) p none)

/-- Reads over what stands where a declaration should end. -/
private def skipToEnd : Parser Unit := do
  noteFault
  recover (do let _ ← expression g) fun _ _ => pure ()
  repeating () fun _ => do
    if ← eatEnd then pure (.inr ())
    else
      advance
      match ← token with
      | .bad _ => pure (.inr ())
      | _ => pure (.inl ())

/-- A loop head that declares nothing, as in `for (var of xs)`. -/
private def declaresNothing : Parser Bool :=
  lookAhead do
    if ← loopWord then
      advance
      let _ ← g.run .assignment
      sees ")"
    else pure false

/-- Variables from their keyword. One without a value or an end is passed over. -/
def bindings (inLoop : Bool) : Parser Stmt := do
  let start ← position
  let isConst ← seesWord "const"
  let isVar ← seesWord "var"
  advance
  if (← isTyped) && inLoop && (← declaresNothing g) then
    pure (.bindings (← spanFrom start) [])
  else
    let declarators ← within (fun s => { s with allowsIn := s.allowsIn || !(isVar && inLoop) }) do
      repeating [] fun acc => do
        if ← sees ";" then pure (.inr acc.reverse)
        else
          let d ← declarator g inLoop isConst isVar
          pure (if ← eat "," then .inl (d :: acc) else .inr (d :: acc).reverse)
    let span ← spanFrom start
    unless ← (pure inLoop <||> eatEnd) do skipToEnd g
    pure (.bindings span declarators)

def goesOnWithLet : Token → Bool
  | .mark text => text == "[" || text == "\x7b"
  | .word text escaped => escaped || !(Token.reserved.contains text)
  | _ => false

/-- A declaration of resources that are given up at the end of a block starts with `using`. -/
private def startsUsing : Parser Bool := do
  let isName ← peeksName
  pure ((← seesWord "using") && isName && !(← peek).2)

/-- The number of faults in a resource: it should have one name and a value. -/
private def resourceFlaws : Declarator → Nat
  | .mk _ (.ident ..) (some _) => 0
  | .mk _ (.ident ..) none | .mk _ _ (some _) => 1
  | .mk _ _ none => 2

private def resources (start : Nat) : Parser Stmt := do
  advance
  let declarators ← repeating [] fun acc => do
    if ← sees ";" then pure (.inr acc.reverse)
    else
      let d ← declarator g false false true
      pure (if ← eat "," then .inl (d :: acc) else .inr (d :: acc).reverse)
  noteFaultIf !(← isTyped)
  declarators.forM fun d => noteFaults (resourceFlaws d)
  expectEnd
  declaration start (declarators.flatMap Declarator.parts)

/-- A declaration with `using` or `await using`. What only looks like the latter waits for a value,
and need not end. -/
def usingDecl? (start : Nat) : Parser (Option Stmt) := do
  if ← startsUsing then some <$> resources g start
  else if (← seesWord "await") && (← peek).1 == .word "using" false then
    advance
    if ← startsUsing then some <$> resources g start
    else
      let value ← awaitFrom g start
      let value ← allowingIn (g.run (.operators value 0))
      let _ ← eatEnd
      pure (some (.expr (← spanFrom start) value))
  else pure none

private def skipToBrace : Parser Unit :=
  repeating () fun _ => do
    if (← sees "\x7b") || (← token) == .finish then pure (.inr ())
    else
      advance
      pure (.inl ())

def interfaceDecl (start : Nat) : Parser Stmt := do
  let name ← wordText
  noteFaultIf (typeWords.contains name)
  let _ ← typeParameters? g
  let bases ← if ← eatWord "extends" then heritage g else pure []
  if ← seesWord "extends" then skipToBrace
  let _ ← inType (typeMembers g)
  declaration start bases.flatten

def typeAliasDecl (start : Nat) : Parser Stmt := do
  let _ ← wordText
  let _ ← typeParameters? g
  let _ ← inType do
    unless ← eat "=" do failUnexpectedKind "="
    g.run .type
  expectEnd
  declaration start []

/-- The key of an enum member, as pieces. It should be a name or a string. -/
private def enumKey : Parser (List Part) := do
  match ← token with
  | .string _ =>
    advance
    pure []
  | .number _ =>
    advance
    noteFault
    pure []
  | .mark "[" =>
    advance
    let key ← expression g
    expect "]"
    noteFault
    pure [.expr key]
  | _ =>
    refuseBad
    let _ ← wordText
    pure []

/-- A member of an enum. The token after one that has no value and no end is passed over, and the
next one taken for a comma. -/
private def enumMember : Parser (List Part) := do
  let key ← enumKey g
  if ← eat "=" then
    let value ← g.run .assignment
    pure (key ++ [.expr value])
  else
    unless ← seesAny [",", "\x7d"] do
      advance
      modify fun s => { s with token := .mark "," }
    pure key

def enumDecl (start : Nat) : Parser Stmt := do
  let _ ← wordText
  expect "\x7b"
  let members ← collect do
    if ← sees "\x7d" then pure none
    else
      let parts ← enumMember g
      unless ← eat "," do
        noteFaultIf !(← sees "\x7d")
      pure (some parts)
  expect "\x7d"
  declaration start members.flatten

private def moduleBlock : Parser (List Part) := do
  expect "\x7b"
  let items ← within (fun s => { s with inNamespace := true }) do
    collect do
      if (← sees "\x7d") || (← token) == .finish then pure none
      else some <$> g.run .moduleItem
  let _ ← eat "\x7d"
  pure (items.map ModuleItem.parts).flatten

def namespaceDecl (start : Nat) : Parser Stmt := do
  let _ ← wordText
  let _ ← collect do
    if ← eat "." then some <$> wordText else pure none
  declaration start (← moduleBlock g)

def ambientModuleDecl (start : Nat) : Parser Stmt := do
  match ← token with
  | .word "global" false | .string _ => advance
  | _ => failUnexpected "global or a string literal"
  let parts ← if ← sees "\x7b" then moduleBlock g else (do expectEnd; pure [])
  declaration start parts

/-- The `= B` of `import A = B`. -/
def importAliasTail : Parser Unit := do
  expect "="
  if (← seesWord "require") && (← peek).1 == .mark "(" then
    advance
    advance
    refuseBad
    match ← token with
    | .string _ => advance
    | _ => failUnexpected "a string literal"
    expect ")"
  else
    let _ ← entityName
  expectEnd

/-- A declaration that the word `text` starts. `pending` tells that the word itself is the token; in
that case what follows must be its declaration. -/
def typedDecl? (start : Nat) (text : String) (pending : Bool) : Parser (Option Stmt) := do
  let lineBreak ← lineBreakBefore
  let skip : Parser Unit := if pending then advance else pure ()
  let onWord (here : Bool) (decl : Parser Stmt) : Parser (Option Stmt) := do
    if pending || here then
      skip
      some <$> decl
    else pure none
  match text with
  | "abstract" => onWord ((← seesWord "class") && !lineBreak) (classDecl g start)
  | "enum" => onWord (← seesName) (enumDecl g start)
  | "interface" => onWord ((← seesName) && !lineBreak) (interfaceDecl g start)
  | "module" =>
    if lineBreak then pure none
    else
      skip
      refuseBad
      match ← token with
      | .finish => fail .endOfInput
      | .string _ => some <$> ambientModuleDecl g start
      | _ => if pending || (← seesName) then some <$> namespaceDecl g start else pure none
  | "namespace" => onWord (← seesName) (namespaceDecl g start)
  | "type" => onWord (!lineBreak && (← seesName)) (typeAliasDecl g start)
  | _ => pure none

/-- A declaration after `declare`, which should not stand in a namespace that is itself declared. -/
def ambientDecl? (start : Nat) : Parser (Option Stmt) := do
  noteFaultIf ((← scope).inAmbient && (← scope).inNamespace)
  within (fun s => { s with inAmbient := true }) do
    match ← token with
    | .word "function" false => some <$> functionDecl g start
    | .word "class" false => some <$> classDecl g start
    | .word "const" false =>
      if (← peek).1 == .word "enum" false then
        advance
        advance
        some <$> enumDecl g start
      else some <$> bindings g false
    | .word "var" false | .word "let" false => some <$> bindings g false
    | .word "global" false => some <$> ambientModuleDecl g start
    | .word text _ => typedDecl? g start text true
    | _ => pure none

/-- A declaration that starts with a name which has been read as an expression. -/
def declAfterName? (start : Nat) (name : String) : Parser (Option Stmt) := do
  match name with
  | "declare" => ambientDecl? g start
  | "global" =>
    if ← sees "\x7b" then
      let parts ← moduleBlock g
      some <$> declaration start parts
    else pure none
  | "public" | "static" | "abstract" =>
    if ← eatWord "interface" then
      noteFault
      some <$> interfaceDecl g start
    else typedDecl? g start name false
  | _ => typedDecl? g start name false

end Grammar

end SideEffectLint
