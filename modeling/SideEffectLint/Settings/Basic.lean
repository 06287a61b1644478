import SideEffectLint.Json.Decoder
import SideEffectLint.Files.Entry

/-!
What can be set for a project, and what can be wrong with the files that set it.
-/

namespace SideEffectLint

open Json (Decoder Record)

structure Settings where
  /-- Reports are written as JSON. -/
  jsonOutput : Bool := false
deriving Repr, DecidableEq, Inhabited

namespace Settings

def decoder : Decoder Settings :=
  Record.decoder {
    title := "struct SemaConfig"
    blank := {}
    fields := [⟨"jsonOutput", false, Decoder.bool.map fun jsonOutput s => { s with jsonOutput }⟩]
    closed := true }

end Settings

inductive SettingsFault where
  | unreadable (path : SystemText) (fault : FileFault)
  | malformed (path : SystemText) (fault : Json.TextFault)
  | manifestUnreadable (path : SystemText) (fault : FileFault)
  | manifestMalformed (path : SystemText) (fault : Json.TextFault)
  /-- The manifest of the project has a member for settings that are none. -/
  | manifestMismatch (path : SystemText) (cause : Json.Mismatch)
deriving Repr, DecidableEq, Inhabited

namespace SettingsFault

private def mismatchMessage : Json.Mismatch → String
  | .tooLong length _ =>
    "invalid length " ++ toString length ++ ", expected fewer elements in array"
  | cause => cause.message

/-- The messages from the outermost to the cause. -/
def messages : SettingsFault → List String
  | unreadable path fault => ["failed to read config file: " ++ path.shown, fault.message]
  | malformed path fault => ["failed to parse config file: " ++ path.shown, fault.message]
  | manifestUnreadable path fault => ["failed to read " ++ path.shown, fault.message]
  | manifestMalformed path fault => ["failed to parse " ++ path.shown, fault.message]
  | manifestMismatch path cause => ["invalid sema config in " ++ path.shown, mismatchMessage cause]

def message (f : SettingsFault) : String :=
  String.intercalate ": " f.messages

end SettingsFault

end SideEffectLint
