import SideEffectLint.Grammar.Functions

/-!
Object and array literals, arguments, and template literals.
-/

namespace SideEffectLint

namespace Grammar

open SideEffectLint.Parser

variable (g : Grammar)

/-- An expression with or without `...` in front. -/
def element : Parser Element := do
  let start ← position
  if ← eat "..." then
    let value ← assignmentWithIn g
    pure (.spread (← spanFrom start) value)
  else .plain <$> g.run .assignment

/-- Arguments in parentheses. -/
def arguments : Parser (List Element) :=
  within (fun s => { s with awaitsColon := false }) do
    expect "("
    let args ← repeating [] fun acc => do
      if ← sees ")" then pure (.inr acc.reverse)
      else
        let value ← allowingIn (element g)
        if ← sees ")" then pure (.inr (value :: acc).reverse)
        else
          expect ","
          pure (.inl (value :: acc))
    expect ")"
    pure args

/-- The literal that starts at `start` ends with a comma. -/
private def noteTrailingComma (start : Nat) : Parser Unit :=
  modify fun s => { s with trailingCommas := start :: s.trailingCommas }

def arrayLiteral : Parser Expr :=
  within (fun s => { s with awaitsColon := false }) do
    let start ← position
    expect "["
    let elements ← repeating [] fun acc => do
      if ← sees "]" then pure (.inr acc.reverse)
      else if ← eat "," then pure (.inl (.hole :: acc))
      else
        let value ← allowingIn (element g)
        unless ← sees "]" do
          expect ","
          if ← sees "]" then noteTrailingComma start
        pure (.inl (value :: acc))
    expect "]"
    pure (.array (← spanFrom start) elements)

private def method (start : Nat) (key : Key) (isAsync isGenerator : Bool) : Parser Property := do
  let tail ← methodTail g isAsync isGenerator
  let body : Body := match tail.body with
    | .block span statements => .block span statements
    | .missing => .block default []
  pure (.method (← spanFrom start) key tail.params body)

/-- In the typed dialects, a key that nothing fitting follows stands for a property of its own. -/
private def keyIsCutOff (key : Key) : Parser Bool := do
  let named := match key with
    | .named .. => true
    | _ => false
  match ← token with
  | .mark "\x7d" => pure !named
  | .mark text => pure !(["(", "[", ":", ",", "?", "=", "*", "<"].contains text)
  | .word .. | .string _ | .number _ | .bigInt _ => pure false
  | _ => pure true

private def failProperty {α : Type} : Parser α := do
  if ← isTyped then
    failUnexpected
      "... , *,  (, [, :, , ?, =, an identifier, public, protected, private, readonly, <."
  else failUnexpected "... , *,  (, [, :, , ?, = or an identifier"

private def lacksParams : Property → Bool
  | .method _ _ params _ => params.isEmpty
  | _ => false

/-- What follows a key that is a plain word. The word may be a shorthand, or stand in front of the
key of an accessor or async method. -/
private def afterWord (start : Nat) (s : Span) (name : String) (hasAccess : Bool) :
    Parser Property := do
  if ← eat "?" then noteFault
  if ← eat "=" then
    let value ← assignmentWithIn g
    pure (.shorthandDefault (← spanFrom start) name value)
  else if ← seesAny [",", "\x7d"] then pure (.shorthand s name)
  else if ["get", "set", "async"].contains name then
    noteFaultIf hasAccess
    let isGenerator ← if name == "async" then eat "*" else pure false
    let key ← key g
    let accessor ← method g start key (name == "async") isGenerator
    noteFaultIf (name == "set" && lacksParams accessor)
    pure accessor
  else failProperty

private def property : Parser Property := do
  let start ← position
  if ← eat "..." then
    let value ← assignmentWithIn g
    pure (.spread (← spanFrom start) value)
  else if ← eat "*" then
    let key ← key g
    method g start key false true
  else
    let hasAccess ← eatAccess
    let key ← key g
    if (← isTyped) && (← keyIsCutOff key) then
      let here ← position
      noteFault
      pure (.keyValue key (.invalid ⟨here, here⟩))
    else if ← eat ":" then
      let value ← assignmentWithIn g
      pure (.keyValue key value)
    else if (← sees "(") || ((← isTyped) && (← sees "<")) then method g start key false false
    else
      match key with
      | .named s name => afterWord g start s name hasAccess
      | _ => failUnexpected "identifier"

def objectLiteral : Parser Expr :=
  within (fun s => { s with awaitsColon := false }) do
    let start ← position
    expect "\x7b"
    let props ← repeating [] fun acc => do
      if ← eat "\x7d" then pure (.inr acc.reverse)
      else
        let p ← property g
        unless ← sees "\x7d" do
          expect ","
          if ← sees "\x7d" then noteTrailingComma start
        pure (.inl (p :: acc))
    pure (.object (← spanFrom start) props)

/-- The pieces of a template. -/
def templateParts (tagged : Bool) : Parser (List Part) :=
  within (fun s => { s with awaitsColon := false }) do
    let values ← template tagged (expressionWithIn g)
    pure (values.map .expr)

def templateLiteral : Parser Expr := do
  let start ← position
  let parts ← templateParts g false
  pure (.compound (← spanFrom start) .template parts)

end Grammar

end SideEffectLint
