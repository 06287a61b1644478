import SideEffectLint.Grammar.Declarations

/-!
Statements.
-/

namespace SideEffectLint

namespace Grammar

open SideEffectLint.Parser

variable (g : Grammar)

private def plain (start : Nat) (kind : StmtKind) (parts : List Part) : Parser Stmt := do
  pure (.other (← spanFrom start) kind parts)

/-- The statement that a `with`, a branch or a label governs. -/
private def body : Parser Stmt :=
  within (fun s => { s with leavesElse := false }) (g.run (.statement false))

private def loopBody : Parser Stmt :=
  within (fun s => { s with mayBreak := true, mayContinue := true }) (body g)

private def condition : Parser Expr := do
  expect "("
  let e ← expressionWithIn g
  expect ")"
  pure e

private def labelWithEnd : Parser String := do
  let label ← labelText
  expectEnd
  pure label

/-- A jump, which should stand where it is `allowed`, and name a label around it. -/
private def jump (start : Nat) (kind : StmtKind) (allowed : Bool) : Parser Stmt := do
  advance
  let label ← if ← eatEnd then pure none else some <$> labelWithEnd
  let isKnown := label.all (← scope).labels.contains
  noteFaultIf !(allowed && isKnown)
  plain start kind []

private def doWhile (start : Nat) : Parser Stmt := do
  advance
  let b ← loopBody g
  expectWord "while"
  let test ← condition g
  let _ ← eatEnd
  plain start .doWhileLoop [.stmt b, .expr test]

/-- What stands in the parentheses of a `for` loop, and the kind of loop that makes it. -/
private structure LoopHead where
  kind : StmtKind
  parts : List Part

/-- The head of a loop over a collection, from the word after its target. -/
private def eachHead (target : Part) : Parser LoopHead := do
  let isOf ← seesWord "of"
  advance
  let subject ← if isOf then assignmentWithIn g else expressionWithIn g
  pure ⟨if isOf then .forOfLoop else .forInLoop, [target, .expr subject]⟩

/-- The head of another loop from its test, after which the semicolon may be left out. -/
private def countedHead (init : List Part) : Parser LoopHead := do
  let test ← if ← eat ";" then pure [] else (do
    let e ← expressionWithIn g
    let _ ← eat ";"
    pure [.expr e])
  let step ← if ← sees ")" then pure [] else (fun e => [.expr e]) <$> expressionWithIn g
  pure ⟨.forLoop, init ++ test ++ step⟩

/-- The first words of `using x` or `await using x`, read as an expression. -/
private def isUsing : Expr → Bool
  | .ident _ "using" | .compound _ .awaitValue [.expr (.ident _ "using")] => true
  | _ => false

/-- In the typed dialects, the name after `using` in the head of a loop over a collection. -/
private def usedName? (init : Expr) : Parser (Option Part) := do
  let next := (← peek).1
  let declares := isUsing init && (← isTyped) && !(← seesWord "of") &&
    (next == .word "of" false || next == .word "in" false)
  if declares then
    let start ← position
    let name ← nameText
    pure (some (.pattern (.ident (← spanFrom start) name none)))
  else pure none

private def loopHead : Parser LoopHead := do
  let declares := (← seesWord "const") || (← seesWord "var") ||
    ((← seesWord "let") && goesOnWithLet (← peek).1)
  let each : Parser Bool := do
    pure ((← seesWord "of") || (← seesWord "in"))
  if declares then
    let decl ← bindings g true
    if ← each then eachHead g (.stmt decl)
    else
      expect ";"
      countedHead g [.stmt decl]
  else if ← eat ";" then countedHead g []
  else
    let init ← within (fun s => { s with allowsIn := false }) (expression g)
    match ← usedName? init with
    | some name => eachHead g name
    | none =>
      if ← each then
        match Cover.loopTarget init with
        | .ok p => eachHead g (.pattern p)
        | .error fault => failAt init.span.start fault
      else
        expect ";"
        countedHead g [.expr init]

private def isForOf : StmtKind → Bool
  | .forOfLoop => true
  | _ => false

private def forLoop (start : Nat) : Parser Stmt := do
  advance
  let isAwait ← eatWord "await"
  expect "("
  let head ← within (fun s => { s with inLoopHead := true }) (loopHead g)
  expect ")"
  let b ← loopBody g
  if isAwait && !isForOf head.kind then fail .awaitOutsideForOf
  plain start head.kind (head.parts ++ [.stmt b])

/-- The branches of an `if` and the `else if`s after it, from their last one. -/
private def chain (last : Option Stmt) : List Stmt → Option Stmt
  | [] => last
  | .conditional s test yes _ :: rest => some (.conditional s test yes (chain last rest))
  | other :: _ => some other

/-- A conditional statement. The `else`s after it are read in one go. -/
def conditional : Parser Stmt := do
  let start ← position
  advance
  let test ← within (fun s => { s with leavesElse := false }) (condition g)
  let yes ← body g
  if (← scope).leavesElse then pure (.conditional (← spanFrom start) test yes none)
  else
    let (branches, last) ← repeating ([] : List Stmt) fun acc => do
      if ← eatWord "else" then
        if ← seesWord "if" then
          let branch ← within (fun s => { s with leavesElse := true }) (g.run .conditional)
          pure (.inl (branch :: acc))
        else
          let last ← body g
          pure (.inr (acc.reverse, some last))
      else pure (.inr (acc.reverse, none))
    pure (.conditional (← spanFrom start) test yes (chain last branches))

/-- A `return`, which should stand in a function. -/
private def returnStmt (start : Nat) : Parser Stmt := do
  advance
  let value ← if ← eatEnd then pure [] else (do
    let e ← expressionWithIn g
    expectEnd
    pure [.expr e])
  noteFaultIf !(← scope).inFunction
  plain start .returns value

private def throwStmt (start : Nat) : Parser Stmt := do
  advance
  if ← lineBreakBefore then fail .lineBreakAfterThrow
  let e ← expressionWithIn g
  expectEnd
  plain start .throws [.expr e]

private def switchCase (seenDefault : Bool) : Parser (Case × Bool) := do
  let start ← position
  let isCase ← seesWord "case"
  advance
  let test ← if isCase then some <$> expressionWithIn g
    else if seenDefault then fail .multipleDefaults
    else pure none
  expect ":"
  let statements ← collect do
    if (← sees "\x7d") || (← seesWord "case") || (← seesWord "default") then pure none
    else some <$> g.run (.statement true)
  pure (.mk (← spanFrom start) test statements, !isCase)

private def switchStmt (start : Nat) : Parser Stmt := do
  advance
  let subject ← condition g
  expect "\x7b"
  let cases ← within (fun s => { s with leavesElse := false, mayBreak := true }) do
    repeating (([] : List Case), false) fun (acc, seen) => do
      if (← seesWord "case") || (← seesWord "default") then
        let (c, isDefault) ← switchCase g seen
        pure (.inl (c :: acc, seen || isDefault))
      else pure (.inr acc.reverse)
  expect "\x7d"
  pure (.switch (← spanFrom start) subject cases)

private def blockPart : Parser (List Part) := do
  let (span, statements) ← within (fun s => { s with leavesElse := false }) (block g false)
  pure [.stmt (.block span statements)]

private def catchClause : Parser (List Part) := do
  if ← eatWord "catch" then
    let param ← if ← eat "(" then (do
        let p ← g.run .binding
        let type ← if ← isTyped then typeNote? g else pure none
        expect ")"
        pure [.pattern (p.withType type)])
      else pure []
    pure (param ++ (← blockPart g))
  else pure []

private def finallyClause : Parser (List Part) := do
  if ← eatWord "finally" then blockPart g else pure []

private def tryStmt (start : Nat) : Parser Stmt := do
  advance
  let tried ← blockPart g
  let caught ← catchClause g
  let last ← finallyClause g
  noteFaultIf (caught.isEmpty && last.isEmpty)
  plain start .tries (tried ++ caught ++ last)

/-- A `catch` or `finally` with no `try` in front. Its blocks are read, and an invalid expression
stands for it. -/
private def strayClause : Parser Stmt := do
  let span := (← state).span
  let ignore (p : Parser (List Part)) : Parser Unit :=
    recover (do let _ ← p) fun _ _ => pure ()
  ignore (catchClause g)
  ignore (finallyClause g)
  pure (.expr span (.invalid span))

private def withStmt (start : Nat) : Parser Stmt := do
  advance
  let object ← condition g
  let b ← body g
  pure (.withObject (← spanFrom start) object b)

/-- A function after a label. It should be no generator, and not stand in strict text. -/
private def labeledFunction : Parser Stmt := do
  let isGenerator := (← peek).1 == .mark "*"
  let f ← functionDecl g (← position)
  noteFaultIf (← scope).strict
  noteFaultIf isGenerator
  pure f

/-- What follows a label, which should not be that of a statement around. -/
private def labeledStmt (start : Nat) (label : String) : Parser Stmt := do
  let b ← within (fun s => { s with mayBreak := true, labels := label :: s.labels }) do
    if ← seesWord "function" then labeledFunction g else body g
  noteFaults ((← scope).labels.count label)
  pure (.labeled (← spanFrom start) label b)

private def exprStmt (start : Nat) : Parser Stmt := do
  let e ← expressionWithIn g
  let label ← match e with
    | .ident _ name => if ← eat ":" then pure (some name) else pure none
    | _ => pure none
  match label with
  | some label => labeledStmt g start label
  | none =>
    let decl ← match e with
      | .ident _ name => if ← isTyped then declAfterName? g start name else pure none
      | _ => pure none
    match decl with
    | some decl => pure decl
    | none =>
      if ← eatEnd then pure (.expr (← spanFrom start) e)
      else if (← token).precedence?.isSome then
        let e ← g.run (.operators e 0)
        pure (.expr (← spanFrom start) e)
      else fail .statementEndExpected

/-- A declaration of the typed dialects that a keyword starts. -/
private def keywordDecl? (start : Nat) : Parser (Option Stmt) := do
  if !(← isTyped) then pure none
  else
    let (next, lineBreak) ← peek
    let named := next.isWord && !lineBreak
    match ← token with
    | .word "const" false =>
      if next == .word "enum" false then
        advance
        advance
        some <$> enumDecl g start
      else pure none
    | .word "interface" false =>
      if named then
        advance
        some <$> interfaceDecl g start
      else pure none
    | .word "type" false =>
      if named then
        advance
        some <$> typeAliasDecl g start
      else pure none
    | .word "enum" false =>
      if named then
        advance
        some <$> enumDecl g start
      else pure none
    | _ => pure none

private def importStmt (start : Nat) : Parser Stmt := do
  let next := (← peek).1
  if (← seesWord "import") && (next == .mark "(" || next == .mark ".") then
    let e ← expression g
    let _ ← eatEnd
    pure (.expr (← spanFrom start) e)
  else fail .importOutsideModule

/-- A statement that its first word decides; `none` if the word may also start an expression. -/
private def wordStmt? (start : Nat) (declarations : Bool) (text : String) :
    Parser (Option Stmt) := do
  match text with
  | "import" | "export" => some <$> importStmt g start
  | "break" => some <$> jump start .breaks (← scope).mayBreak
  | "continue" => some <$> jump start .continues (← scope).mayContinue
  | "debugger" =>
    advance
    expectEnd
    some <$> plain start .debugger []
  | "do" => some <$> doWhile g start
  | "for" => some <$> forLoop g start
  | "function" => some <$> functionDecl g start
  | "class" => some <$> classDecl g start
  | "if" => some <$> conditional g
  | "return" => some <$> returnStmt g start
  | "switch" => some <$> switchStmt g start
  | "throw" => some <$> throwStmt g start
  | "catch" | "finally" => some <$> strayClause g
  | "try" => some <$> tryStmt g start
  | "with" => some <$> withStmt g start
  | "while" =>
    advance
    let test ← condition g
    let b ← loopBody g
    some <$> plain start .whileLoop [.expr test, .stmt b]
  | "var" => some <$> bindings g false
  | "const" => if declarations then some <$> bindings g false else pure none
  | "let" =>
    if declarations && goesOnWithLet (← peek).1 then some <$> bindings g false else pure none
  | "async" =>
    let (next, lineBreak) ← peek
    if next == .word "function" false && !lineBreak then some <$> functionDecl g start
    else pure none
  | "using" | "await" => if declarations then usingDecl? g start else pure none
  | _ => pure none

/-- A statement; variables other than by `var` are declared only among the statements of a block. -/
def statement (declarations : Bool) : Parser Stmt := do
  let start ← position
  match ← token with
  | .word text false =>
    match ← keywordDecl? g start with
    | some decl => pure decl
    | none =>
      match ← wordStmt? g start declarations text with
      | some s => pure s
      | none => exprStmt g start
  | .mark "\x7b" =>
    let (span, statements) ← within (fun s => { s with leavesElse := false }) (block g false)
    pure (.block span statements)
  | .mark ";" =>
    advance
    plain start .empty []
  | _ => exprStmt g start

end Grammar

end SideEffectLint
