import SideEffectLint.Grammar.Rule

/-!
Names, words that modify what follows, lists with separators, and templates.
-/

namespace SideEffectLint

namespace Parser

variable {α : Type}

def wordText : Parser String := do
  let s ← state
  match s.token with
  | .word text escaped =>
    advance
    pure (if !escaped && Token.isKnown text then s.written else text)
  | _ => fail .nameExpected

private def isFaulty (scope : Scope) : Token → Bool
  | .word "enum" false => true
  | .word "arguments" _ => scope.inField
  | _ => false

private def name (mayBeYield mayBeAwait : Bool) : Parser String := do
  let scope ← scope
  let first ← token
  match first with
  | .word text false =>
    if text == "await" then
      if scope.inAmbient then pure ()
      else if scope.inStaticBlock then fail .nameExpected
      else if scope.inAsync || (← state).inModule then fail .awaitAsName
      else unless mayBeAwait do fail .nameExpected
    else
      let isKept := Token.reserved.contains text && !(text == "this" && scope.dialect.typed)
      if isKept || (text == "yield" && !mayBeYield) then fail .nameExpected
  | _ => pure ()
  let text ← wordText
  noteFaultIf (isFaulty scope first)
  pure text

def nameText : Parser String :=
  name true true

/-- A name that is declared. It should be no word that has a meaning here. -/
def declaredName : Parser String := do
  let text ← nameText
  let scope ← scope
  let hasMeaning := match text with
    | "yield" => scope.inGenerator
    | "await" => scope.inAsync || scope.inStaticBlock
    | _ => false
  noteFaultIf hasMeaning
  pure text

def labelText : Parser String := do
  name (!(← scope).inGenerator) true

def partText : Parser String :=
  name false false

def failReservedLet : Parser α :=
  failUnexpected "let is reserved in const, let, class declaration"

def privateName : Parser String := do
  let start ← position
  expect "#"
  if (← position) ≠ (← state).lastStop then failAt start .spaceAfterHash
  wordText

/-- The token goes on with a declaration after a word that modifies it; all but a word have to stand
on the same line. -/
private def goesOn : Token × Bool → Bool
  | (.word .., _) => true
  | (.mark text, lineBreak) => !lineBreak && ["[", "\x7b", "*", "...", "#"].contains text
  | (.string _, lineBreak) | (.number _, lineBreak) | (.bigInt _, lineBreak) => !lineBreak
  | _ => false

def modifier? (words : List String) : Parser (Option String) := do
  refuseBad
  match ← token with
  | .finish => fail .endOfInput
  | .word text _ =>
    if words.contains text && goesOn (← peek) then
      advance
      pure (some text)
    else pure none
  | _ => pure none

private def mayHaveAccess : Token → Bool
  | .word .. | .mark "\x7b" | .mark "[" => true
  | _ => false

/-- In the typed dialects, a word about access in front of a parameter or key. The answer tells
whether there is one, even if the end of its line makes it a name. -/
def eatAccess : Parser Bool := do
  if !(← isTyped) then pure false
  else
    let words := ["public", "protected", "private", "readonly"]
    match ← token with
    | .word text false =>
      if words.contains text && mayHaveAccess (← peek).1 then
        let _ ← modifier? words
        pure true
      else pure false
    | _ => pure false

/-- Elements with commas between them, up to a token that `stops`; a last comma is allowed. -/
def delimited (stops : Parser Bool) (element : Parser α) : Parser (List α) :=
  repeating [] fun acc => do
    if ← stops then pure (.inr acc.reverse)
    else
      let value ← element
      if ← eat "," then pure (.inl (value :: acc))
      else if ← stops then pure (.inr (value :: acc).reverse)
      else failExpected ","

/-- What stands in the substitutions of a template whose first part is the token. A bad escape
sequence in its text is a fault unless a tag reads the template. -/
def template (tagged : Bool) (item : Parser α) : Parser (List α) := do
  let start ← position
  let refuse (fault : Option SyntaxFault) : Parser Unit :=
    match fault with
    | some fault => unless tagged do failAt start fault
    | none => pure ()
  match ← token with
  | .template hasSubstitution fault =>
    advance
    refuse fault
    if !hasSubstitution then pure []
    else
      repeating [] fun acc => do
        let value ← item
        unless ← sees "\x7d" do failUnexpected "`\x7d`"
        let (stop, fault, c) := (← state).after.templateText
        if stop = .unterminated then fail .unterminatedTemplate
        jumpTo c
        refuse fault
        pure (if stop = .closed then .inr (value :: acc).reverse else .inl (value :: acc))
  | _ => pure []

end Parser

end SideEffectLint
