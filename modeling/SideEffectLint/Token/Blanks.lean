import SideEffectLint.Text.Blank
import SideEffectLint.Text.Cursor

/-!
Skipping what stands in front of a token: blanks, comments, the comments of old markup, and the
lines that a failed merge leaves. The last two count as a part of the token after them.
-/

namespace SideEffectLint

namespace Cursor

inductive Skipping where
  | between
  | lineComment
  | blockComment

structure Skipped where
  rest : Cursor
  /-- A line ended on the way, or nothing but blanks stood before on the first line. -/
  fresh : Bool
  /-- Where the first part stands that counts as a part of the token. -/
  mark : Option Nat

namespace Skipped

def start (s : Skipped) : Nat :=
  s.mark.getD s.rest.offset

end Skipped

/-- Goes past all that stands in front of a token; `fresh` tells that nothing but blanks stands
before on the line. A comment that is never closed ends the text. Where angle brackets stand for
themselves they start no comment. -/
def skipBlanks (splitsAngles : Bool) :
    Skipping → List Char → Nat → Bool → Option Nat → Skipped
  | _, [], offset, fresh, mark => ⟨⟨[], offset⟩, fresh, mark⟩
  | .between, '/' :: '/' :: cs, offset, fresh, mark =>
    skipBlanks splitsAngles .lineComment cs (offset + 2) fresh mark
  | .between, '/' :: '*' :: cs, offset, fresh, mark =>
    skipBlanks splitsAngles .blockComment cs (offset + 2) fresh mark
  | .between, '<' :: '!' :: '-' :: '-' :: cs, offset, fresh, mark =>
    if splitsAngles then ⟨⟨'<' :: '!' :: '-' :: '-' :: cs, offset⟩, fresh, mark⟩
    else skipBlanks splitsAngles .lineComment cs (offset + 4) fresh (mark.or (some offset))
  | .between, '-' :: '-' :: '>' :: cs, offset, true, mark =>
    skipBlanks splitsAngles .lineComment cs (offset + 3) true (mark.or (some offset))
  | .between, '<' :: '<' :: '<' :: '<' :: '<' :: '<' :: '<' :: ' ' :: cs, offset, true, mark =>
    if splitsAngles then
      ⟨⟨'<' :: '<' :: '<' :: '<' :: '<' :: '<' :: '<' :: ' ' :: cs, offset⟩, true, mark⟩
    else skipBlanks splitsAngles .lineComment cs (offset + 8) true (mark.or (some offset))
  | .between, '>' :: '>' :: '>' :: '>' :: '>' :: '>' :: '>' :: ' ' :: cs, offset, true, mark =>
    if splitsAngles then
      ⟨⟨'>' :: '>' :: '>' :: '>' :: '>' :: '>' :: '>' :: ' ' :: cs, offset⟩, true, mark⟩
    else skipBlanks splitsAngles .lineComment cs (offset + 8) true (mark.or (some offset))
  | .between, '=' :: '=' :: '=' :: '=' :: '=' :: '=' :: '=' :: cs, offset, true, mark =>
    skipBlanks splitsAngles .lineComment cs (offset + 7) true (mark.or (some offset))
  | .between, c :: cs, offset, fresh, mark =>
    let next := offset + c.utf8Size
    if Text.isLineTerminator c then skipBlanks splitsAngles .between cs next true mark
    else if Text.isSpace c then skipBlanks splitsAngles .between cs next fresh mark
    else ⟨⟨c :: cs, offset⟩, fresh, mark⟩
  | .lineComment, c :: cs, offset, fresh, mark =>
    let next := offset + c.utf8Size
    if Text.isLineTerminator c then skipBlanks splitsAngles .between cs next true mark
    else skipBlanks splitsAngles .lineComment cs next fresh mark
  | .blockComment, '*' :: '/' :: cs, offset, fresh, mark =>
    skipBlanks splitsAngles .between cs (offset + 2) fresh mark
  | .blockComment, c :: cs, offset, fresh, mark =>
    skipBlanks splitsAngles .blockComment cs (offset + c.utf8Size)
      (fresh || Text.isLineTerminator c) mark

/-- Goes past all that stands in front of the token after `c`. -/
def toToken (c : Cursor) (splitsAngles fresh : Bool) : Skipped :=
  skipBlanks splitsAngles .between c.rest c.offset fresh none

end Cursor

end SideEffectLint
