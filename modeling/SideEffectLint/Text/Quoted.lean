import SideEffectLint.Text.Hex
import SideEffectLint.Text.HiddenRanges

/-!
Text in quotes for a message, with everything that would not show as itself escaped.
-/

namespace SideEffectLint.Text

private def isHidden (c : Char) : Bool :=
  if c.toNat < 0x7f then c < ' '
  else hiddenRanges.any fun r => r.1 ≤ c.toNat && c.toNat ≤ r.2

private def shownWithin (quote c : Char) : List Char :=
  if c = quote then ['\\', c]
  else
    match c with
    | '\\' => ['\\', '\\']
    | '\n' => ['\\', 'n']
    | '\r' => ['\\', 'r']
    | '\t' => ['\\', 't']
    | '\x00' => ['\\', '0']
    | c => if isHidden c then "\\u\x7b".toList ++ hex 1 c.toNat ++ ['\x7d'] else [c]

/-- A text in double quotes. -/
def quoted (text : String) : String :=
  String.ofList ('"' :: text.toList.flatMap (shownWithin '"') ++ ['"'])

/-- A character in single quotes. -/
def quotedChar (c : Char) : String :=
  String.ofList ('\'' :: shownWithin '\'' c ++ ['\''])

end SideEffectLint.Text
