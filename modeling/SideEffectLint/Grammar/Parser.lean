import SideEffectLint.Source.Dialect
import SideEffectLint.Source.Span
import SideEffectLint.Token.Scanner

/-!
Parsers over a text with one token read ahead. A failure keeps the state it happened in, so that a
caller may go on from there.
-/

namespace SideEffectLint

/-- What the surroundings of a piece of text allow in it. -/
structure Scope where
  dialect : Dialect
  /-- An offset past the end of the text. -/
  limit : Nat
  /-- The operator `in` may stand in an expression. -/
  allowsIn : Bool := false
  /-- A class or a directive makes the text strict. -/
  strict : Bool := false
  inGenerator : Bool := false
  inAsync : Bool := false
  inStaticBlock : Bool := false
  /-- Inside a conditional expression, whose colon may look like that of a return type. -/
  inConditional : Bool := false
  /-- The colon of a conditional expression comes next. -/
  awaitsColon : Bool := false
  inAmbient : Bool := false
  inNamespace : Bool := false
  /-- A type is read up to the `extends` of a conditional type. -/
  withoutConditionalTypes : Bool := false
  allowsSuper : Bool := false
  /-- An `else` belongs to a statement further out. -/
  leavesElse : Bool := false
  inParams : Bool := false
  inLoopHead : Bool := false
  /-- In the body of a function. -/
  inFunction : Bool := false
  /-- In a function or class, which gives `new.target` a meaning. -/
  hasNewTarget : Bool := false
  /-- In the value of a class field or in a static block. -/
  inField : Bool := false
  mayBreak : Bool := false
  mayContinue : Bool := false
  /-- The labels of the statements around. -/
  labels : List String := []
  inType : Bool := false
  /-- In an operand and its members, where marks stay whole in types too. -/
  keepsMarks : Bool := false
  /-- What is read may be undone, and no fault that reading goes on after counts. -/
  isTentative : Bool := false

namespace Scope

/-- Angle brackets stand for themselves and are no part of a longer mark. -/
def splitsAngles (scope : Scope) : Bool :=
  scope.inType && !scope.keepsMarks

/-- The word is no name here; in a module, as in strict text, more words are kept. -/
def reserves (scope : Scope) (inModule : Bool) (word : String) : Bool :=
  let strict := scope.strict || inModule
  match word with
  | "await" => scope.inAsync || scope.inStaticBlock || strict
  | "yield" => scope.inGenerator || strict
  | "implements" | "interface" | "let" | "package" | "private" | "protected" | "public"
  | "static" => strict
  | _ => word == "enum" || Token.reserved.contains word

end Scope

structure State where
  token : Token
  /-- The place of the token. -/
  span : Span
  /-- The token's first character. -/
  here : Cursor
  /-- The text after the token. -/
  after : Cursor
  /-- A line ended between the last token and this one. -/
  lineBreak : Bool
  /-- Where the last token ended. -/
  lastStop : Nat
  /-- Where an arrow function may start. -/
  arrowStart : Nat
  /-- Where the literals start that end with a comma. -/
  trailingCommas : List Nat
  /-- A regular expression could not be read. No token follows it. -/
  isStuck : Bool
  /-- An import or export has been read. -/
  inModule : Bool

inductive Reply (α : Type) where
  | done (value : α) (state : State)
  /-- The fault stands at `position`. -/
  | failed (fault : SyntaxFault) (position : Nat) (state : State)

def Parser (α : Type) : Type :=
  Scope → State → Reply α

namespace State

def atStart (c : Cursor) : State :=
  let skipped := c.toToken false true
  let (token, after) := Token.scan skipped.rest false skipped.fresh
  { token := token
    span := ⟨skipped.start, after.offset⟩
    here := skipped.rest
    after := after
    lineBreak := skipped.fresh
    lastStop := c.offset
    arrowStart := 0
    trailingCommas := []
    isStuck := false
    inModule := false }

/-- The state at the token that `c` stands in front of; the last token ended at `lastStop`. -/
def moveTo (s : State) (scope : Scope) (c : Cursor) (lastStop : Nat) : State :=
  let skipped := c.toToken scope.splitsAngles false
  let (token, after) := Token.scan skipped.rest scope.splitsAngles skipped.fresh
  { s with
    token := token
    span := ⟨skipped.start, after.offset⟩
    here := skipped.rest
    after := after
    lineBreak := skipped.fresh
    lastStop := lastStop }

def next (s : State) (scope : Scope) : State :=
  if s.isStuck then s else s.moveTo scope s.after s.span.stop

def written (s : State) : String :=
  s.here.textTo s.after

def refuseEscapes (scope : Scope) (s : State) : State :=
  match s.token with
  | .word text false =>
    if scope.reserves s.inModule text && s.written != text then
      { s with token := .bad (.escapedKeyword text) }
    else s
  | _ => s

end State

namespace Parser

instance : Monad Parser where
  pure value := fun _ s => .done value s
  bind p f := fun scope s =>
    match p scope s with
    | .done value s => f value scope s
    | .failed fault position s => .failed fault position s

instance {α : Type} : Inhabited (Parser α) := ⟨fun _ s => .failed .tooDeep 0 s⟩

variable {α β : Type}

def scope : Parser Scope :=
  fun scope s => .done scope s

def within (change : Scope → Scope) (p : Parser α) : Parser α :=
  fun scope s => p (change scope) s

def state : Parser State :=
  fun _ s => .done s s

def modify (change : State → State) : Parser Unit :=
  fun _ s => .done () (change s)

/-- Fails at a place. Text that is no token is passed over. -/
def failAt (position : Nat) (fault : SyntaxFault) : Parser α :=
  fun scope s =>
    match s.token with
    | .bad _ => .failed fault position (s.next scope)
    | _ => .failed fault position s

def fail (fault : SyntaxFault) : Parser α :=
  fun scope s => failAt s.span.start fault scope s

/-- Fails at text that is no token, for the cause of that. -/
def refuseBad : Parser Unit :=
  fun scope s =>
    match s.token with
    | .bad cause => .failed cause s.span.start (s.next scope)
    | _ => .done () s

/-- Undoes a parser that fails or finds nothing. -/
def attempt (p : Parser (Option α)) : Parser (Option α) :=
  fun scope s =>
    match p { scope with isTentative := true } s with
    | .done (some value) after => .done (some value) after
    | _ => .done none s

def lookAhead (p : Parser Bool) : Parser Bool :=
  fun scope s =>
    match p { scope with isTentative := true } s with
    | .done answer _ => .done answer s
    | .failed .. => .done false s

/-- Goes on from where a parser failed, with the fault and its place. -/
def recover (p : Parser α) (handler : SyntaxFault → Nat → Parser α) : Parser α :=
  fun scope s =>
    match p scope s with
    | .done value s => .done value s
    | .failed fault position s => handler fault position scope s

private def repeatFrom {σ : Type} (step : σ → Parser (σ ⊕ α)) : Nat → σ → Parser α
  | 0, _ => fail .tooDeep
  | fuel + 1, acc => fun scope s =>
    match step acc scope s with
    | .done (.inl acc) s => repeatFrom step fuel acc scope s
    | .done (.inr value) s => .done value s
    | .failed fault position s => .failed fault position s

/-- Repeats a step until it gives an answer. Every round but the last reads a token. -/
def repeating {σ : Type} (init : σ) (step : σ → Parser (σ ⊕ α)) : Parser α :=
  fun scope s => repeatFrom step (scope.limit + 2 - s.span.start) init scope s

def collect (step : Parser (Option α)) : Parser (List α) :=
  repeating [] fun acc => do
    match ← step with
    | some value => pure (.inl (value :: acc))
    | none => pure (.inr acc.reverse)

def token : Parser Token :=
  fun _ s => .done s.token s

def position : Parser Nat :=
  fun _ s => .done s.span.start s

/-- The place from `start` to the end of the last token. -/
def spanFrom (start : Nat) : Parser Span :=
  fun _ s => .done ⟨start, s.lastStop⟩ s

def advance : Parser Unit :=
  fun scope s => .done () ((s.next scope).refuseEscapes scope)

/-- Notes `count` faults that reading goes on after. Each takes with it text that is no token. -/
def noteFaults : Nat → Parser Unit
  | 0 => pure ()
  | count + 1 => do
    if !(← scope).isTentative then
      match ← token with
      | .bad _ => advance
      | _ => pure ()
    noteFaults count

def noteFault : Parser Unit :=
  noteFaults 1

def noteFaultIf (condition : Bool) : Parser Unit :=
  if condition then noteFault else pure ()

def jumpTo (c : Cursor) : Parser Unit :=
  fun scope s => .done () ((s.moveTo scope c c.offset).refuseEscapes scope)

/-- Reads the token again, as this place in the text has it. -/
def readAgain : Parser Unit :=
  fun scope s =>
    let (token, after) := Token.scan s.here scope.splitsAngles s.lineBreak
    .done () { s with token := token, span := ⟨s.span.start, after.offset⟩, after := after }

def peek : Parser (Token × Bool) :=
  fun scope s =>
    let next := s.next scope
    .done (next.token, next.lineBreak) s

def lineBreakBefore : Parser Bool :=
  fun _ s => .done s.lineBreak s

def isTyped : Parser Bool :=
  fun scope s => .done scope.dialect.typed s

def sees (text : String) : Parser Bool :=
  fun _ s => .done (s.token == .mark text) s

def seesWord (text : String) : Parser Bool :=
  fun _ s => .done (s.token == .word text false) s

def seesString : Parser Bool :=
  fun _ s => .done (match s.token with | .string _ => true | _ => false) s

def seesTemplate : Parser Bool :=
  fun _ s => .done (match s.token with | .template .. => true | _ => false) s

def seesAny (texts : List String) : Parser Bool :=
  fun _ s =>
    .done (match s.token with | .mark text => texts.contains text | _ => false) s

def isName (t : Token) : Parser Bool :=
  fun scope s =>
    .done (match t with
      | .word text escaped => escaped || !scope.reserves s.inModule text
      | _ => false) s

def seesName : Parser Bool := do
  isName (← token)

def peeksName : Parser Bool := do
  isName (← peek).1

def eat (text : String) : Parser Bool := do
  if ← sees text then
    advance
    pure true
  else pure false

def eatWord (text : String) : Parser Bool := do
  if ← seesWord text then
    advance
    pure true
  else pure false

def failExpected (text : String) : Parser α := do
  fail (.expected text (← token).shown)

def failUnexpected (wanted : String) : Parser α := do
  fail (.unexpected (← token).shown wanted)

/-- Fails where a type needs a mark in front. -/
def failUnexpectedKind (wanted : String) : Parser α := do
  fail (.unexpected (← token).kind wanted)

def expect (text : String) : Parser Unit := do
  unless ← eat text do failExpected text

def expectWord (text : String) : Parser Unit := do
  unless ← eatWord text do failExpected text

/-- A statement ends here: at a semicolon, in front of a closing brace, after a line end, or at the
end of the text. -/
def seesEnd : Parser Bool :=
  fun _ s =>
    .done (s.token == .mark ";" || s.token == .mark "\x7d" || s.token == .finish || s.lineBreak) s

def eatEnd : Parser Bool := do
  if ← eat ";" then pure true else seesEnd

def expectEnd : Parser Unit := do
  unless ← eatEnd do failExpected ";"

/-- Takes a mark apart when it starts with `text`, so that it is this mark. -/
def split (text : String) : Parser Unit :=
  modify fun s =>
    match s.token with
    | .mark whole =>
      if text.toList.isPrefixOf whole.toList then
        let tail := whole.toList.drop text.length
        let stop := s.here.offset + text.utf8ByteSize
        { s with
          token := .mark text
          span := ⟨s.span.start, stop⟩
          after := ⟨tail ++ s.after.rest, stop⟩ }
      else s
    | _ => s

end Parser

end SideEffectLint
