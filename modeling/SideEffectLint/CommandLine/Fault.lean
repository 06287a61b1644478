import SideEffectLint.CommandLine.Form

/-!
What can be wrong with the words of a command line.
-/

namespace SideEffectLint.CommandLine

/-- What may have been meant by an option that is unknown. -/
inductive Similar where
  | option (name : String)
  /-- An option of one of the commands that follow. -/
  | optionOf (command name : String)
deriving Repr, DecidableEq, Inhabited

inductive Cause where
  /-- It could be passed `asValue`. -/
  | unknownArgument (word : String) (asValue : Bool) (similar : Option Similar)
  | unknownCommand (word : String) (similar : List String)
  /-- The name of a command after two dashes. -/
  | lateCommand (name : String)
  | missingValue (p : Parameter)
  | wrongValue (p : Parameter) (value : String) (similar : Option String)
  | needlessValue (p : Parameter) (value : String)
  | repeated (p : Parameter)
deriving Repr, DecidableEq, Inhabited

namespace Cause

private def quoted (style : Style) (text : String) : List Piece :=
  [.plain "'", .styled style text, .plain "'"]

private def separated : List (List Piece) → List Piece
  | [] => []
  | [p] => p
  | p :: ps => p ++ .plain ", " :: separated ps

private def choiceList (choices : List String) : List Piece :=
  if choices.isEmpty then []
  else .plain "\n  [possible values: " :: separated (choices.map fun c => [.styled .green c]) ++
    [.plain "]"]

private def pieces : Cause → List Piece
  | unknownArgument word _ _ | lateCommand word =>
    .plain "unexpected argument " :: quoted .yellow word ++ [.plain " found"]
  | unknownCommand word _ => .plain "unrecognized subcommand " :: quoted .yellow word
  | missingValue p =>
    .plain "a value is required for " :: quoted .yellow p.shown ++
      .plain " but none was supplied" :: choiceList p.choices
  | wrongValue p value _ =>
    .plain "invalid value " :: quoted .yellow value ++ .plain " for " :: quoted .bold p.shown ++
      choiceList p.choices
  | needlessValue p value =>
    .plain "unexpected value " :: quoted .yellow value ++ .plain " for " :: quoted .bold p.shown ++
      [.plain " found; no more were expected"]
  | repeated p =>
    .plain "the argument " :: quoted .yellow p.shown ++ [.plain " cannot be used multiple times"]

private def similarTip (kind word : String) : List Piece :=
  .plain (" a similar " ++ kind ++ " exists: ") :: quoted .green word

private def tips : Cause → List (List Piece)
  | unknownArgument word asValue similar =>
    (match similar with
      | some (.option name) => [similarTip "argument" ("--" ++ name)]
      | _ => []) ++
    (if asValue then
      [.plain " to pass " :: quoted .yellow word ++ .plain " as a value, use " ::
        quoted .green ("-- " ++ word)]
      else []) ++
    (match similar with
      | some (.optionOf command name) =>
        [.plain " " :: quoted .green (command ++ " --" ++ name) ++ [.plain " exists"]]
      | _ => [])
  | unknownCommand _ [] => []
  | unknownCommand _ [name] => [similarTip "subcommand" name]
  | unknownCommand _ names =>
    [.plain " some similar subcommands exist: " :: separated (names.map (quoted .green))]
  | lateCommand name =>
    [.plain " subcommand " :: quoted .green name ++ .plain " exists; to use it, remove the " ::
      quoted .yellow "--" ++ [.plain " before it"]]
  | wrongValue _ _ (some value) => [similarTip "value" value]
  | _ => []

/-- A value that is missing or wrong is told without the usage. -/
private def showsUsage : Cause → Bool
  | missingValue _ | wrongValue .. => false
  | _ => true

end Cause

/-- A fault in the words of the command `form`, after the parameters `used`. -/
structure UsageFault where
  form : Form
  used : List Parameter
  cause : Cause
deriving Repr, DecidableEq, Inhabited

namespace UsageFault

private def tipLine (tip : List Piece) : List Piece :=
  .plain "\n  " :: .styled .green "tip:" :: tip

def pieces (f : UsageFault) : List Piece :=
  let tips := f.cause.tips
  .styled .alarm "error:" :: .plain " " :: f.cause.pieces ++
  (if tips.isEmpty then [] else .plain "\n" :: tips.flatMap tipLine) ++
  (if f.cause.showsUsage then .plain "\n\n" :: f.form.usage f.used else []) ++
  .plain "\n\nFor more information, try " ::
    [.plain "'", .styled .bold "--help", .plain "'", .plain ".\n"]

end UsageFault

end SideEffectLint.CommandLine
