import SideEffectLint.Grammar.Statements

/-!
Items of modules: imports, exports and statements.
-/

namespace SideEffectLint

namespace Grammar

open SideEffectLint.Parser

variable (g : Grammar)

private def item (start : Nat) (parts : List Part) : Parser ModuleItem := do
  pure (.other (← spanFrom start) parts)

private def moduleName : Parser Unit := do
  match ← token with
  | .string _ => advance
  | _ => failUnexpected "a string literal"

/-- Attributes after a module name. -/
private def importAttributes : Parser Unit := do
  unless ← lineBreakBefore do
    if ← (eatWord "with" <||> eatWord "assert") then
      let _ ← g.run .object

private def fromModule : Parser Unit := do
  expectWord "from"
  moduleName
  importAttributes g
  expectEnd

/-- From here on the text is a module, even if it turns out to be none. -/
private def enterModule : Parser Unit :=
  modify fun s => { s with inModule := true }

/-- How a module names what it exports. -/
private inductive ExportName where
  | word (text : String)
  | string (text : String)

private def exportName : Parser ExportName := do
  match ← token with
  | .string text =>
    advance
    pure (.string text)
  | .word .. => .word <$> wordText
  | _ => failUnexpected "identifier or string"

/-- The name in a specifier after `type`, which should not stand there where `onlyTypes` holds;
`none` if that name is `as`, for which the rest of the specifier is read too. -/
private def nameAfterType? (onlyTypes : Bool) (renamed : Parser Unit) :
    Parser (Option ExportName) := do
  match ← wordText with
  | "as" =>
    if (← token).isWord then
      let isAs ← seesWord "as"
      renamed
      if isAs && (← token).isWord then
        renamed
        noteFaultIf onlyTypes
    else noteFaultIf onlyTypes
    pure none
  | name =>
    noteFaultIf onlyTypes
    pure (some (.word name))

/-- The rest of a specifier after its first name, and the name that it is about; `renamed` reads the
name after `as`, and `bare` looks at a name without one. -/
private def specifierFrom (onlyTypes : Bool) (renamed : Parser Unit)
    (bare : ExportName → Parser Unit) (first : ExportName) : Parser ExportName := do
  let name ← match first, ← token with
    | .word "type", .word .. =>
      if ← isTyped then nameAfterType? onlyTypes renamed else pure (some first)
    | _, _ => pure (some first)
  match name with
  | some name =>
    if ← eatWord "as" then renamed else bare name
    pure name
  | none => pure first

private def specifiers {α : Type} (one : Parser α) : Parser (List α) := do
  expect "\x7b"
  repeating [] fun acc => do
    if ← eat "\x7d" then pure (.inr acc.reverse)
    else
      let found ← one
      unless ← sees "\x7d" do expect ","
      pure (.inl (found :: acc))

private def boundName : Parser Unit := do
  let _ ← nameText

/-- A name of the other module that has to serve here as well: no string can, and no word that is
kept should. -/
private def bareImport : ExportName → Parser Unit
  | .string text => fail (.importedString text)
  | .word text => do
    noteFaultIf ((← scope).reserves (← state).inModule text)

private def importSpecifier (onlyTypes : Bool) : Parser Unit := do
  let first ← exportName
  let isType := match first with
    | .word "type" => true
    | _ => false
  if isType && (← isTyped) && (← seesString) then
    advance
    expectWord "as"
    boundName
    noteFaultIf onlyTypes
  else
    let _ ← specifierFrom onlyTypes boundName bareImport first

private def exportSpecifier (onlyTypes : Bool) : Parser ExportName := do
  let renamed : Parser Unit := do
    let _ ← exportName
  specifierFrom onlyTypes renamed (fun _ => pure ()) (← exportName)

/-- The name needs another module to export it from. -/
private def needsModule : ExportName → Bool
  | .word text => Token.reserved.contains text || text == "enum" || text == "package"
  | .string _ => true

/-- How an import starts: with a name or none, and whether a `type` of the typed dialects stands in
front of its names. -/
private structure ImportStart where
  name : Option String
  onlyTypes : Bool := false

private def importStart : Parser ImportStart := do
  let name ← nameText
  if !(← isTyped) || name != "type" then pure { name := name }
  else if ← seesAny ["*", "\x7b"] then pure ⟨none, true⟩
  else if ← seesName then
    let next := (← peek).1
    if !(← seesWord "from") || next == .word "from" false then
      let name ← nameText
      pure ⟨name, true⟩
    else if next == .mark "=" then
      let name ← wordText
      pure ⟨name, true⟩
    else pure { name := name }
  else pure { name := name }

/-- What an import does with the names of a module. -/
private inductive Phase where
  | evaluation
  | source
  | defer

/-- After the first name of an import: whether it is a phase and no name. -/
private def phaseOnly (name : String) : Parser (Phase × Bool) := do
  if name != "source" && name != "defer" then pure (.evaluation, false)
  else
    let phase := if name == "defer" then Phase.defer else .source
    if ← seesAny ["*", "\x7b"] then pure (phase, true)
    else if ((← seesName) && !(← seesWord "from")) || (← peek).1 == .word "from" false then
      if name == "defer" then pure (.evaluation, true)
      else
        boundName
        pure (phase, false)
    else pure (.evaluation, false)

private def importNames (onlyTypes : Bool) : Phase → Parser Unit
  | .source => pure ()
  | phase => do
    if ← eat "*" then
      expectWord "as"
      boundName
    else
      match phase with
      | .evaluation =>
        if ← sees "\x7b" then
          let _ ← specifiers (importSpecifier onlyTypes)
      | _ => pure ()

private def importDecl (start : Nat) : Parser ModuleItem := do
  enterModule
  advance
  match ← token with
  | .string _ =>
    advance
    importAttributes g
    let _ ← eatEnd
    item start []
  | _ =>
    let first ← if ← seesName then importStart else pure ⟨none, false⟩
    let isAlias := first.name.isSome && (← isTyped) && (← sees "=")
    if isAlias then importAliasTail
    else
      let phase ← match first.name with
        | some name => do
          let (phase, bare) ← phaseOnly name
          unless bare || (← seesWord "from") do expect ","
          pure phase
        | none => pure .evaluation
      importNames first.onlyTypes phase
      fromModule g
    item start []

private def exportDecl (start : Nat) (decl : Parser Stmt) : Parser ModuleItem := do
  let d ← decl
  pure (.exportDecl (← spanFrom start) d)

private def seesAsyncFunction : Parser Bool := do
  let (next, lineBreak) ← peek
  pure ((← seesWord "async") && next == .word "function" false && !lineBreak)

private def exportDefault (start : Nat) : Parser ModuleItem := do
  let first ← position
  let (next, lineBreak) ← peek
  let isAbstract := (← isTyped) && (← seesWord "abstract") &&
    (next == .word "interface" false || (next == .word "class" false && !lineBreak))
  if isAbstract then advance
  if ← (isTyped <&&> eatWord "interface") then
    let _ ← interfaceDecl g first
    item start []
  else if ← seesWord "class" then
    let (_, parts) ← classTail g false
    item start parts
  else if (← seesWord "function") || (← seesAsyncFunction) then
    let (name, tail) ← namedFunction g do
      if ← seesName then some <$> declaredName else pure none
    pure (.exportDefaultFunction (← spanFrom first) name tail.params tail.body)
  else
    let e ← assignmentWithIn g
    expectEnd
    item start [.expr e]

/-- Names that are exported, from here or from another module. -/
private def exportNames (start : Nat) (onlyTypes : Bool) : Parser ModuleItem := do
  let all ← eat "*"
  if all then
    if ← eatWord "as" then
      let _ ← exportName
    fromModule g
  else
    let names ← specifiers (exportSpecifier onlyTypes)
    if ← seesWord "from" then fromModule g
    else
      noteFaults (names.countP needsModule)
      let _ ← eatEnd
  item start []

private def exportValue (start : Nat) : Parser ModuleItem := do
  let first ← position
  let onlyTypes ← if ← isTyped then eatWord "type" else pure false
  if ← (pure !onlyTypes <&&> eatWord "default") then exportDefault g start
  else if onlyTypes then exportNames g start onlyTypes
  else if ← seesWord "class" then exportDecl start (classDecl g first)
  else if (← seesWord "function") || (← seesAsyncFunction) then
    exportDecl start (functionDecl g first)
  else
    let next := (← peek).1
    if (← isTyped) && (← seesWord "const") && next == .word "enum" false then
      advance
      advance
      exportDecl start (enumDecl g first)
    else if (← seesWord "var") || (← seesWord "const") ||
        ((← seesWord "let") && goesOnWithLet next) then
      exportDecl start (bindings g false)
    else exportNames g start onlyTypes

/-- Exports of the typed dialects that are no values. -/
private def typedExport? (start : Nat) : Parser (Option ModuleItem) := do
  let first ← position
  let declared ← if ← eatWord "declare" then ambientDecl? g first else pure none
  match declared with
  | some d => pure (some (.exportDecl (← spanFrom start) d))
  | none =>
    let decl ← match ← token with
      | .word text _ => attempt (typedDecl? g first text true)
      | _ => pure none
    match decl with
    | some d => pure (some (.exportDecl (← spanFrom start) d))
    | none =>
      if ← eatWord "import" then
        let nameFollows ← peeksName
        if (← seesWord "type") && nameFollows then advance
        let _ ← wordText
        importAliasTail
        some <$> item start []
      else if ← eat "=" then
        let e ← expression g
        expectEnd
        some <$> item start [.expr e]
      else if ← eatWord "as" then
        expectWord "namespace"
        let _ ← partText
        expectEnd
        some <$> item start []
      else pure none

private def exportItem (start : Nat) : Parser ModuleItem := do
  enterModule
  advance
  if (← token) == .finish then fail .endOfInput
  let typed ← if ← isTyped then typedExport? g start else pure none
  match typed with
  | some found => pure found
  | none => exportValue g start

/-- A statement among the items of a module. What it holds does not make the text a module. -/
private def statementItem : Parser ModuleItem := do
  let inModule := (← state).inModule
  let s ← g.run (.statement true)
  modify fun s => { s with inModule := inModule }
  pure (.stmt s)

def moduleItem : Parser ModuleItem := do
  let start ← position
  let next := (← peek).1
  if (← seesWord "import") && next != .mark "(" && next != .mark "." then importDecl g start
  else if ← seesWord "export" then exportItem g start
  else statementItem g

end Grammar

end SideEffectLint
