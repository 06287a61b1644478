import SideEffectLint.Files.System
import SideEffectLint.Settings.Basic

/-!
Where the settings of a project come from: a file that is named, a file of their own in the project,
or a member of its manifest. The first of them that exists counts, whatever it holds.
-/

namespace SideEffectLint

namespace Settings

def fileName : String :=
  "semaconfig.json"

def manifestName : String :=
  "package.json"

/-- The member of the manifest that holds settings. -/
def manifestKey : String :=
  "sema"

end Settings

/-- Settings and the path of the file that they come from, if they are not the default. -/
structure LoadedSettings where
  settings : Settings
  source : Option SystemText
deriving Repr, DecidableEq, Inhabited

namespace FileSystem

def loadSettings (fs : FileSystem) (path : SystemText) : Except SettingsFault Settings := do
  let text ← (fs.readText path).mapError (.unreadable path)
  (Settings.decoder.decode text).mapError (.malformed path)

def loadManifest (fs : FileSystem) (path : SystemText) : Except SettingsFault (Option Settings) := do
  let text ← (fs.readText path).mapError (.manifestUnreadable path)
  let manifest ← (Json.Decoder.anything.decode text).mapError (.manifestMalformed path)
  match manifest.canonical.member? Settings.manifestKey with
  | none => pure none
  | some v => return some (← (Settings.decoder.ofValue v).mapError (.manifestMismatch path))

/-- The settings that a project holds, with the path of the file. -/
def discoverSettings (fs : FileSystem) (project : SystemText) :
    Except SettingsFault (Option (Settings × SystemText)) := do
  let path := Path.join project Settings.fileName
  if fs.pathExists path then return some (← fs.loadSettings path, path)
  let manifest := Path.join project Settings.manifestName
  if fs.pathExists manifest then
    return (← fs.loadManifest manifest).map fun settings => (settings, manifest)
  return none

/-- The settings for a project, from the file `explicit` if one is named. -/
def resolveSettings (fs : FileSystem) (project : SystemText) (explicit : Option SystemText) :
    Except SettingsFault LoadedSettings := do
  match explicit with
  | some path => return ⟨← fs.loadSettings path, some path⟩
  | none =>
    match ← fs.discoverSettings project with
    | some (settings, path) => return ⟨settings, some path⟩
    | none => return ⟨{}, none⟩

end FileSystem

end SideEffectLint
