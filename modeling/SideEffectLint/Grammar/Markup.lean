import SideEffectLint.Grammar.Operands

/-!
Markup elements. Between tags the text is not made of tokens: it is looked through for the next
brace or angle bracket.
-/

namespace SideEffectLint

namespace Grammar

open SideEffectLint.Parser

variable (g : Grammar)

private def isTagPart (c : Char) : Bool :=
  Text.isNamePart c || c = '-'

/-- Goes past what follows the first word of a tag name. Backslashes in it are passed over; after a
`\u` one more character is, and then a code is read. The first argument bounds the number of
rounds. -/
private def tagRest : List Char → Cursor → List Char → List Char × Cursor
  | [], c, acc => (acc, c)
  | _ :: fuel, c, acc =>
    match c.rest with
    | '\\' :: 'u' :: _ :: digits =>
      match Escape.unicode digits with
      | .ok (code, count) =>
        tagRest fuel (c.drop (count + 3)) ((Escape.nameChars code).reverse ++ acc)
      | .error _ => tagRest fuel (Escape.afterBadCode (c.drop 3)) acc
    | '\\' :: _ => tagRest fuel (c.drop 1) acc
    | ch :: _ => if isTagPart ch then tagRest fuel (c.drop 1) (ch :: acc) else (acc, c)
    | [] => (acc, c)

/-- A name in a tag, which may hold dashes. Its first word has no escape sequences. -/
private def tagWord : Parser String := do
  let s ← state
  match s.token with
  | .word text _ =>
    if s.written.contains '\\' then fail .unclosedEscape
    let (rest, last) := tagRest s.after.rest s.after []
    jumpTo last
    pure (Token.shownWord text ++ String.ofList rest.reverse)
  | _ =>
    refuseBad
    failUnexpected "jsx identifier"

private def qualifiedWord : Parser String := do
  let first ← tagWord
  if ← eat ":" then
    let second ← tagWord
    pure (first ++ ":" ++ second)
  else pure first

private def tagName : Parser String := do
  let first ← qualifiedWord
  repeating first fun acc => do
    if ← eat "." then
      let word ← tagWord
      pure (.inl (acc ++ "." ++ word))
    else pure (.inr acc)

/-- The end of a string in a tag whose closing quote comes first. The quote is left in front of the
last character of the text. -/
private def pastQuote (c : Cursor) : Cursor :=
  match c.rest with
  | _ :: _ :: _ :: _ => c.drop 1
  | _ => c

/-- After the `=` of an attribute, a quote that stands next to it opens a string without escape
sequences. -/
private def enterValue : Parser Unit := do
  let s ← state
  match s.after.rest with
  | c :: _ =>
    if c = '"' || c = '\'' then
      let value := (s.after.rest.drop 1).takeWhile (· ≠ c)
      let after := pastQuote (s.after.drop (value.length + 1))
      modify fun s =>
        { s with
          token := .string (String.ofList value)
          span := ⟨s.after.offset, after.offset⟩
          here := s.after
          after := after
          lineBreak := false
          lastStop := s.span.stop }
    else advance
  | [] => advance

private def braced : Parser (List Part) := do
  expect "\x7b"
  if ← eat "\x7d" then fail .emptyAttribute
  let value ← expressionWithIn g
  expect "\x7d"
  pure [.expr value]

private def attributeValue : Parser (List Part) := do
  enterValue
  match ← token with
  | .string _ =>
    advance
    pure []
  | .mark "\x7b" => braced g
  | .mark "<" => (fun e => [.expr e]) <$> g.run .markup
  | _ => fail .attributeValueExpected

private def attributePart : Parser (List Part) := do
  if ← eat "\x7b" then
    expect "..."
    let value ← assignmentWithIn g
    expect "\x7d"
    pure [.expr value]
  else
    let _ ← qualifiedWord
    if ← sees "=" then attributeValue g else pure []

private def attributes : Parser (List Part) := do
  let lists ← collect do
    split ">"
    if (← sees "/") || (← sees ">") then pure none else some <$> attributePart g
  pure lists.flatten

private def isText (c : Char) : Bool :=
  c ≠ '<' && c ≠ '\x7b'

/-- The token in front of which text between tags ends. -/
private def toBoundary : State → State := fun s =>
  let c := s.after.dropWhile isText
  let enter (token : Token) (length : Nat) : State :=
    { s with
      token := token
      span := ⟨c.offset, c.offset + length⟩
      after := c.drop length
      lineBreak := false
      lastStop := c.offset }
  match c.rest with
  | [] => enter .finish 0
  | '<' :: '/' :: _ => enter (.mark "</") 2
  | '<' :: _ => enter (.mark "<") 1
  | _ => enter (.mark "\x7b") 1

/-- As `toBoundary`, but text in front of it is a token. -/
private def toTextOrBoundary (s : State) : State :=
  match s.after.rest with
  | c :: _ =>
    if isText c then
      { s with
        token := .markupText
        span := ⟨s.after.offset, s.after.offset⟩
        lastStop := s.span.stop }
    else toBoundary s
  | [] => toBoundary s

private def childBraced : Parser (List Part) := do
  advance
  if ← sees "\x7d" then pure []
  else
    let _ ← eat "..."
    let value ← expressionWithIn g
    if ← sees "\x7d" then pure [.expr value] else failExpected "\x7d"

private def closingTag (opened : String) (inExpression : Bool) : Parser Unit := do
  expect "</"
  let name ← tagName
  split ">"
  unless ← sees ">" do failExpected ">"
  unless name == opened do
    if inExpression then advance else modify toTextOrBoundary
    fail (.closingTag opened)

/-- An element whose opening bracket is the token. Its last token is the closing bracket, which is
left. -/
private def elementFrom (children : Parser (List Part)) (inExpression : Bool) :
    Parser (ExprKind × List Part) := do
  advance
  split ">"
  if ← sees ">" then
    let parts ← children
    expect "</"
    split ">"
    unless ← sees ">" do failExpected ">"
    pure (.markupFragment, parts)
  else
    let name ← tagName
    if (← isTyped) && (← sees "<") then
      let _ ← attempt (some <$> typeArguments g)
    let given ← attributes g
    if ← eat "/" then
      split ">"
      unless ← sees ">" do failExpected ">"
      pure (.markupElement, given)
    else
      let parts ← children
      closingTag name inExpression
      pure (.markupElement, given ++ parts)

/-- What stands between tags, up to the closing tag. A child that cannot be read ends the list. -/
private def childrenTo (depth : Nat) : Parser (List Part) :=
  repeating [] fun acc => do
    modify toBoundary
    match ← token with
    | .mark "<" =>
      match depth with
      | 0 => fail .tooDeep
      | depth + 1 =>
        let start ← position
        recover
          (do
            let (kind, parts) ← elementFrom g (childrenTo depth) false
            let stop := (← state).span.stop
            pure (.inl (acc ++ [.expr (.compound ⟨start, stop⟩ kind parts)])))
          fun _ _ => pure (.inr acc)
    | .mark "\x7b" =>
      recover
        (do
          let parts ← childBraced g
          pure (.inl (acc ++ parts)))
        fun _ _ => pure (.inr acc)
    | _ => pure (.inr acc)

def markup : Parser Expr := do
  let start ← position
  let (kind, parts) ← within (fun s => { s with awaitsColon := false })
    (elementFrom g (childrenTo g (← scope).limit) true)
  advance
  pure (.compound (← spanFrom start) kind parts)

end Grammar

end SideEffectLint
