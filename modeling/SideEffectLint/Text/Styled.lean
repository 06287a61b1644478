/-!
Text in colours for a terminal.
-/

namespace SideEffectLint

inductive Style where
  | green
  | red
  | yellow
  | dimmed
  | boldRed
  | boldGreen
  | bold
  | heading
  | alarm
deriving Repr, DecidableEq, Inhabited

namespace Style

/-- What turns the style on. -/
def opening : Style → List Char
  | green => ['\x1b', '[', '3', '2', 'm']
  | red => ['\x1b', '[', '3', '1', 'm']
  | yellow => ['\x1b', '[', '3', '3', 'm']
  | dimmed => ['\x1b', '[', '2', 'm']
  | boldRed => ['\x1b', '[', '1', ';', '3', '1', 'm']
  | boldGreen => ['\x1b', '[', '1', ';', '3', '2', 'm']
  | bold => ['\x1b', '[', '1', 'm']
  | heading => ['\x1b', '[', '1', 'm', '\x1b', '[', '4', 'm']
  | alarm => ['\x1b', '[', '1', 'm', '\x1b', '[', '3', '1', 'm']

/-- The sequence that turns every style off. -/
def closing : List Char :=
  ['\x1b', '[', '0', 'm']

/-- Turns the style on again behind each sequence in the text that turns it off. -/
def reopen (style : Style) : List Char → List Char
  | '\x1b' :: '[' :: '0' :: 'm' :: cs => closing ++ style.opening ++ style.reopen cs
  | c :: cs => c :: style.reopen cs
  | [] => []

def apply (style : Style) (text : String) : String :=
  String.ofList (style.opening ++ style.reopen text.toList ++ closing)

end Style

/-- A stretch of text in one style, if it has any. -/
structure Piece where
  style : Option Style
  text : String
deriving Repr, DecidableEq, Inhabited

namespace Piece

def plain (text : String) : Piece :=
  ⟨none, text⟩

def styled (style : Style) (text : String) : Piece :=
  ⟨some style, text⟩

def render (coloured : Bool) (p : Piece) : String :=
  match p.style, coloured with
  | some style, true => style.apply p.text
  | _, _ => p.text

def renderAll (coloured : Bool) (ps : List Piece) : String :=
  String.join (ps.map (render coloured))

end Piece

end SideEffectLint
