import SideEffectLint.Token.Literal

/-!
The next token of a text whose blanks have been skipped. A slash is a mark here; the grammar reads a
regular expression where one may stand. Where `splitsAngles` holds, angle brackets are marks by
themselves and not the start of longer ones.
-/

namespace SideEffectLint

namespace Token

/-- Every mark, each before the marks it starts with. -/
def marks : List (List Char × String) :=
  [">>>=", "...", "===", "!==", "**=", "<<=", ">>=", ">>>", "&&=", "||=", "??=", "=>", "==", "!=",
   "<=", ">=", "&&", "||", "??", "++", "--", "+=", "-=", "*=", "/=", "%=", "&=", "|=", "^=", "<<",
   ">>", "**", "\x7b", "\x7d", "(", ")", "[", "]", ";", ",", "<", ">", "+", "-", "*", "/", "%",
   "&", "|", "^", "!", "~", "?", ":", "=", ".", "@", "#"].map fun t => (t.toList, t)

private def mark? (c : Cursor) : Option (Token × Cursor) :=
  (marks.find? fun m => m.1.isPrefixOf c.rest).map fun m => (mark m.2, c.drop m.1.length)

private def templateToken (c : Cursor) : Token × Cursor :=
  match c.templateText with
  | (.unterminated, _, stop) => (bad .unterminatedTemplate, stop)
  | (.substitution, fault, stop) => (template true fault, stop)
  | (.closed, fault, stop) => (template false fault, stop)

/-- The mark that separates the versions of a failed merge, which has no meaning by itself. -/
private def isMergeMark (cs : List Char) : Bool :=
  "||||||| ".toList.isPrefixOf cs

/-- The token that starts at `c`; `fresh` tells that it is the first one of its line. A template
that is not closed is no token. -/
def scan (c : Cursor) (splitsAngles fresh : Bool) : Token × Cursor :=
  match c.rest with
  | [] => (finish, c)
  | ch :: rest =>
    if ch.isDigit then c.number
    else if ch = '"' || ch = '\'' then (c.drop 1).string ch
    else if ch = '.' && (rest.headD ' ').isDigit then c.number
    else if ch = '\\' || Text.isNameStart ch then c.name
    else if fresh && isMergeMark c.rest then
      let skipped := Cursor.skipBlanks splitsAngles .lineComment c.rest c.offset false none
      (bad .mergeMark, skipped.rest)
    else if ch = '\x60' then templateToken (c.drop 1)
    else if splitsAngles && (ch = '<' || ch = '>') then (mark (String.singleton ch), c.drop 1)
    else
      match mark? c with
      | some found => found
      | none => (bad (.unexpectedCharacter ch), c.drop 1)

end Token

end SideEffectLint
