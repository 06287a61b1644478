/-!
Blank characters of source texts.
-/

namespace SideEffectLint.Text

/-- Ends a line of tokens. -/
def isLineTerminator (c : Char) : Bool :=
  c = '\n' || c = '\r' || c = '\u2028' || c = '\u2029'

/-- Separates tokens within a line: tabs, the form feed, the next line control, the byte order mark
and every space, the one of no width included. -/
def isSpace (c : Char) : Bool :=
  c = ' ' || c = '\t' || c = '\x0b' || c = '\x0c' || c = '\u0085' || c = '\u00a0' ||
  c = '\ufeff' || c = '\u1680' || (0x2000 ≤ c.toNat && c.toNat ≤ 0x200b) || c = '\u202f' ||
  c = '\u205f' || c = '\u3000'

end SideEffectLint.Text
