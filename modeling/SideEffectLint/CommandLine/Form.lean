import SideEffectLint.Text.Styled

/-!
What commands are made of, and how their usage is shown.
-/

namespace SideEffectLint.CommandLine

inductive Parameter where
  | flag (name : String)
  /-- An option takes a value, which is one of the choices if there are any. -/
  | option (name value : String) (choices : List String)
  | position (value : String)
deriving Repr, DecidableEq, Inhabited

namespace Parameter

/-- The name behind two dashes. -/
def longName? : Parameter → Option String
  | flag name | option name _ _ => some name
  | position _ => none

def choices : Parameter → List String
  | option _ _ choices => choices
  | _ => []

def isPosition : Parameter → Bool
  | position _ => true
  | _ => false

def shown : Parameter → String
  | flag name => "--" ++ name
  | option name value _ => "--" ++ name ++ " <" ++ value ++ ">"
  | position value => "[" ++ value ++ "]"

end Parameter

structure Form where
  /-- The words that call the command. -/
  name : String
  about : String
  parameters : List Parameter
  /-- The names of the commands that it is divided into. -/
  commands : List String
deriving Repr, DecidableEq, Inhabited

namespace Form

private def takesOptions (f : Form) : Bool :=
  f.parameters.any fun
    | .option .. => true
    | _ => false

def takesPosition (f : Form) : Bool :=
  f.parameters.any Parameter.isPosition

def longNames (f : Form) : List String :=
  f.parameters.filterMap Parameter.longName?

private def usedPiece : Parameter → List Piece
  | .flag name => [.plain " ", .styled .bold ("--" ++ name)]
  | .option name value _ =>
    [.plain " ", .styled .bold ("--" ++ name), .plain (" <" ++ value ++ ">")]
  | .position _ => []

private def positionText (used : List Parameter) : Parameter → String
  | .position value =>
    if used.contains (.position value) then " <" ++ value ++ ">" else " [" ++ value ++ "]"
  | _ => ""

/-- The usage in general, or in the light of the parameters that have been used. -/
def usage (f : Form) (used : List Parameter) : List Piece :=
  [.styled .heading "Usage:", .plain " ", .styled .bold f.name] ++
  (if used.isEmpty then (if f.takesOptions then [.plain " [OPTIONS]"] else [])
    else used.flatMap usedPiece) ++
  [.plain (String.join (f.parameters.map (positionText used))),
    .plain (if f.commands.isEmpty then "" else " <COMMAND>")]

private def help : Parameter :=
  .flag "help"

def program : Form :=
  ⟨"sema", "Flags JavaScript and TypeScript functions that mutate their inputs",
    [help, .flag "version"], ["analyze", "config", "help"]⟩

def path : Parameter :=
  .position "PATH"

def format : Parameter :=
  .option "format" "FORMAT" ["text", "json"]

def settingsPath : Parameter :=
  .option "config" "CONFIG" []

def analyze : Form :=
  ⟨"sema analyze", "Analyze source files for parameter mutations and mutating method calls",
    [path, format, settingsPath, help], []⟩

def config : Form :=
  ⟨"sema config", "Validate or inspect a configuration file", [help],
    ["validate", "show", "help"]⟩

def shownPath : Parameter :=
  .option "path" "PATH" []

def validate : Form :=
  ⟨"sema config validate", "Validate a config file without running analysis",
    [shownPath, help], []⟩

def showSettings : Form :=
  ⟨"sema config show", "Show the resolved configuration", [shownPath, help], []⟩

/-- The command of `f` that tells about its commands. -/
private def helpOf (f : Form) : Form :=
  ⟨f.name ++ " help", "Print this message or the help of the given subcommand(s)",
    [.position "COMMAND"], []⟩

/-- The commands that a form is divided into, by their names. -/
def inner (f : Form) : List (String × Form) :=
  if f = program then [("analyze", analyze), ("config", config), ("help", helpOf f)]
  else if f = config then [("validate", validate), ("show", showSettings), ("help", helpOf f)]
  else []

end Form

end SideEffectLint.CommandLine
