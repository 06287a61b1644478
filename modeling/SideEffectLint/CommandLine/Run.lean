import SideEffectLint.CommandLine.Arguments
import SideEffectLint.Files.Scan
import SideEffectLint.Report.Encoding
import SideEffectLint.Report.Styled
import SideEffectLint.Settings.Discovery

/-!
What the program does for a command: what it writes, and the status that it ends with.
-/

namespace SideEffectLint.CommandLine

structure Outcome where
  status : Nat
  output : String
  errors : String
deriving Repr, DecidableEq, Inhabited

namespace Outcome

def ok (output : String) : Outcome :=
  ⟨0, output, ""⟩

private def indented (indent : String) (text : String) : String :=
  String.ofList (text.toList.flatMap fun c => if c = '\n' then '\n' :: indent.toList else [c])

private def numbered : Nat → List String → String
  | _, [] => ""
  | n, cause :: causes =>
    "    " ++ toString n ++ ": " ++ indented "       " cause ++ "\n" ++ numbered (n + 1) causes

/-- A message and the causes of what it tells. -/
def failure (messages : List String) : Outcome :=
  let text := match messages with
    | [] => ""
    | [message] => message ++ "\n"
    | [message, cause] => message ++ "\n\nCaused by:\n    " ++ indented "    " cause ++ "\n"
    | message :: causes => message ++ "\n\nCaused by:\n" ++ numbered 0 causes
  ⟨1, "", "Error: " ++ text⟩

/-- Writes something to the errors first. -/
def after (errors : String) (o : Outcome) : Outcome :=
  { o with errors := errors ++ o.errors }

end Outcome

private def settingsFailure (f : SettingsFault) : Outcome :=
  .failure ("failed to load configuration" :: f.messages)

/-- Goes on with a path; where there is none, its fault is all that is told. -/
private def withPath (path : Except FileFault SystemText) (go : SystemText → Outcome) : Outcome :=
  match path with
  | .ok path => go path
  | .error fault => .failure [fault.message]

private def analyze (fs : FileSystem) (coloured : Bool) (path : SystemText) (format : Option Format)
    (settings : Option SystemText) : Outcome :=
  withPath (fs.absolute path) fun path =>
    if !fs.pathExists path then .failure ["Path does not exist: " ++ path.shown]
    else
      withPath fs.currentPath fun project =>
        match fs.resolveSettings project settings with
        | .error fault => settingsFailure fault
        | .ok loaded =>
          let note := match loaded.source with
            | some source => "Using config: " ++ source.shown ++ "\n"
            | none => ""
          Outcome.after note <|
            match fs.scan .standard path with
            | .error fault => .failure fault.messages
            | .ok report =>
              match format.getD (if loaded.settings.jsonOutput then .json else .text) with
              | .text => .ok (report.render coloured)
              | .json => .ok (report.toJson ++ "\n")

private def validate (fs : FileSystem) (settings : Option SystemText) : Outcome :=
  withPath fs.currentPath fun project =>
    match fs.resolveSettings project settings with
    | .error fault => ⟨1, "", "Config validation failed: " ++ fault.message ++ "\n"⟩
    | .ok ⟨_, some source⟩ => .ok ("Config valid: " ++ source.shown ++ "\n")
    | .ok ⟨_, none⟩ => .ok "No config file found. Using defaults.\n"

private def showSettings (fs : FileSystem) (settings : Option SystemText) : Outcome :=
  withPath fs.currentPath fun project =>
    match fs.resolveSettings project settings with
    | .error fault => settingsFailure fault
    | .ok loaded =>
      let source := match loaded.source with
        | some source => source.shown
        | none => "defaults (no config file found)"
      .ok ("Configuration:\n  Source: " ++ source ++
        "\n\nOutput:\n  jsonOutput: " ++ toString loaded.settings.jsonOutput ++
        "\n\nFilters:\n  exclude: " ++
        String.intercalate ", " (Exclude.standard.globs.map Glob.text) ++ "\n")

namespace Command

/-- The paths that a command may look at, a directory that is walked before the files. -/
def paths : Command → List SystemText
  | analyze path _ settings => path :: settingsPaths settings
  | validate settings | showSettings settings => settingsPaths settings
where
  settingsPaths : Option SystemText → List SystemText
    | some path => [path]
    | none => [Settings.fileName, Settings.manifestName]

def run (fs : FileSystem) (coloured : Bool) : Command → Outcome
  | analyze path format settings => CommandLine.analyze fs coloured path format settings
  | validate settings => CommandLine.validate fs settings
  | showSettings settings => CommandLine.showSettings fs settings

end Command

namespace Refusal

private def helpText (f : Form) : String :=
  f.about ++ "\n\n" ++ Piece.renderAll false (f.usage []) ++ "\n"

/-- Help that nobody asked for is an error. -/
def outcome (coloured : Bool) : Refusal → Outcome
  | help form true => .ok (helpText form)
  | help form false => ⟨2, "", helpText form⟩
  | version => .ok "sema 0.3.0\n"
  | fault f => ⟨2, "", Piece.renderAll coloured f.pieces⟩

end Refusal

/-- Whether to write in colours, by the variables that ask for it or forbid it. -/
def isColoured (noColour force wish : Option String) (terminal : Bool) : Bool :=
  force.any (· != "0") || noColour.isNone && terminal && wish.all (· != "0")

/-- What the program does when it is called with these words. -/
def run (fs : FileSystem) (coloured : Bool) (words : List SystemText) : Outcome :=
  match Command.ofWords words with
  | .ok command => command.run fs coloured
  | .error refusal => refusal.outcome coloured

end SideEffectLint.CommandLine
