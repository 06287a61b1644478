/-!
The unread part of a text.
-/

namespace SideEffectLint

/-- The unread text and the offset, in bytes, of its first character. -/
structure Cursor where
  rest : List Char
  offset : Nat
deriving Repr, DecidableEq, Inhabited

namespace Cursor

/-- The number of bytes that characters take. -/
def utf8Length (cs : List Char) : Nat :=
  cs.foldl (fun n c => n + c.utf8Size) 0

def drop (c : Cursor) (n : Nat) : Cursor :=
  ⟨c.rest.drop n, c.offset + utf8Length (c.rest.take n)⟩

/-- Goes past the characters that `p` accepts. -/
def dropWhile (c : Cursor) (p : Char → Bool) : Cursor :=
  ⟨c.rest.dropWhile p, c.offset + utf8Length (c.rest.takeWhile p)⟩

def startsWith (c : Cursor) (text : String) : Bool :=
  text.toList.isPrefixOf c.rest

end Cursor

end SideEffectLint
