/-!
Patterns for the texts of paths. A star stands for any text, slashes included; two stars and a slash
stand for nothing or for any text that ends in a slash.
-/

namespace SideEffectLint

inductive GlobPart where
  | char (c : Char)
  | anything
  | directories
deriving Repr, DecidableEq, Inhabited

/-- The text of the pattern, and what it consists of. -/
structure Glob where
  text : String
  parts : List GlobPart
deriving Repr, DecidableEq, Inhabited

namespace Glob

private def partsOf : List Char → List GlobPart
  | '*' :: '*' :: '/' :: cs => .directories :: partsOf cs
  | '*' :: '*' :: cs => .anything :: partsOf cs
  | '*' :: cs => .anything :: partsOf cs
  | c :: cs => .char c :: partsOf cs
  | [] => []

def ofText (text : String) : Glob :=
  ⟨text, partsOf text.toList⟩

/-- A text and every tail of it. -/
def tails : List Char → List (List Char)
  | [] => [[]]
  | c :: cs => (c :: cs) :: tails cs

/-- The tails of a text that start right after a slash. -/
def tailsAfterSlash : List Char → List (List Char)
  | [] => []
  | c :: cs => if c = '/' then cs :: tailsAfterSlash cs else tailsAfterSlash cs

def accepts : List GlobPart → List Char → Bool
  | [], cs => cs.isEmpty
  | .char _ :: _, [] => false
  | .char p :: ps, c :: cs => c = p && accepts ps cs
  | .anything :: ps, cs => (tails cs).any (accepts ps)
  | .directories :: ps, cs => (cs :: tailsAfterSlash cs).any (accepts ps)

/-- The pattern stands for the whole of the path. -/
def isMatch (g : Glob) (path : String) : Bool :=
  accepts g.parts path.toList

end Glob

end SideEffectLint
