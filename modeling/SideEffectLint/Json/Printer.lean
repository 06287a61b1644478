import SideEffectLint.Json.Value
import SideEffectLint.Text.Hex

/-!
The text of a value over several lines, indented by two spaces a level.
-/

namespace SideEffectLint.Json

/-- Quotes, backslashes and control characters are escaped, the usual ones by a letter. -/
def escapedChar (c : Char) : List Char :=
  match c with
  | '"' => ['\\', '"']
  | '\\' => ['\\', '\\']
  | '\x08' => ['\\', 'b']
  | '\x0c' => ['\\', 'f']
  | '\n' => ['\\', 'n']
  | '\r' => ['\\', 'r']
  | '\t' => ['\\', 't']
  | c => if c < ' ' then '\\' :: 'u' :: Text.hex 4 c.toNat else [c]

def quotedChars (text : String) : List Char :=
  '"' :: text.toList.flatMap escapedChar ++ ['"']

namespace Scalar

def chars : Scalar → List Char
  | null => ['n', 'u', 'l', 'l']
  | bool true => ['t', 'r', 'u', 'e']
  | bool false => ['f', 'a', 'l', 's', 'e']
  | number (.whole n) => (toString n).toList
  | number (.fraction d) => d.text.toList
  | string text => quotedChars text

end Scalar

namespace Value

def newLine (depth : Nat) : List Char :=
  '\n' :: List.replicate (2 * depth) ' '

mutual

/-- The text of a value that stands `depth` levels deep. -/
def chars (depth : Nat) : Value → List Char
  | .scalar s => s.chars
  | .array [] => ['[', ']']
  | .array (v :: vs) =>
    '[' :: newLine (depth + 1) ++ v.chars (depth + 1) ++ moreItems (depth + 1) vs ++
      newLine depth ++ [']']
  | .object [] => ['\x7b', '\x7d']
  | .object (m :: ms) =>
    '\x7b' :: newLine (depth + 1) ++ memberChars (depth + 1) m ++ moreMembers (depth + 1) ms ++
      newLine depth ++ ['\x7d']

def moreItems (depth : Nat) : List Value → List Char
  | [] => []
  | v :: vs => ',' :: newLine depth ++ v.chars depth ++ moreItems depth vs

def memberChars (depth : Nat) : Member → List Char
  | .mk key v => quotedChars key ++ ':' :: ' ' :: v.chars depth

def moreMembers (depth : Nat) : List Member → List Char
  | [] => []
  | m :: ms => ',' :: newLine depth ++ memberChars depth m ++ moreMembers depth ms

end

def render (v : Value) : String :=
  String.ofList (v.chars 0)

end Value

end SideEffectLint.Json
