import SideEffectLint.Token.Escape

/-!
The longer tokens: names, numbers, strings, and the parts of templates and regular expressions.
Each reader starts at the first character of what it reads, or right after the mark that opens it.
-/

namespace SideEffectLint

namespace Cursor

/-- The characters that fill the first `n` bytes. -/
private def firstBytes : Nat → List Char → List Char
  | 0, _ | _, [] => []
  | n, c :: cs => c :: firstBytes (n - c.utf8Size) cs

def textTo (c last : Cursor) : String :=
  String.ofList (firstBytes (last.offset - c.offset) c.rest)

private def followedByName (c : Cursor) : Bool :=
  match c.rest with
  | ch :: _ => ch.toNat < 0x80 && Text.isNameStart ch
  | [] => false

/-- A bad escape sequence comes with the place after it. The first argument bounds the number of
rounds: it is at least as long as the unread text. -/
private def nameEnd :
    List Char → Cursor → List Char → Except (SyntaxFault × Cursor) (List Char × Cursor)
  | [], c, acc => .ok (acc, c)
  | _ :: fuel, c, acc =>
    match c.rest with
    | '\\' :: 'u' :: rest =>
      match Escape.unicode rest with
      | .error fault => .error (fault, Escape.afterBad c)
      | .ok (code, count) =>
        nameEnd fuel (c.drop (count + 2)) ((Escape.nameChars code).reverse ++ acc)
    | '\\' :: _ => .error (.unicodeEscapeExpected, Escape.afterBad c)
    | ch :: _ => if Text.isNamePart ch then nameEnd fuel (c.drop 1) (ch :: acc) else .ok (acc, c)
    | [] => .ok (acc, c)

def name (c : Cursor) : Token × Cursor :=
  let plain := c.rest.takeWhile Text.isNamePart
  let after := c.drop plain.length
  match after.rest with
  | '\\' :: _ =>
    match nameEnd after.rest after plain.reverse with
    | .ok (chars, last) => (.word (String.ofList chars.reverse) plain.isEmpty, last)
    | .error (fault, last) => (.bad fault, last)
  | _ => (.word (String.ofList plain) false, after)

private def finishNumber (c last : Cursor) : Token × Cursor :=
  if last.followedByName then (.bad .identifierAfterNumber, last)
  else (.number (c.textTo last), last)

private def isDigitOrBreak (c : Char) : Bool :=
  c.isDigit || c = '_'

private def isDigitOf (radix : Nat) (c : Char) : Bool :=
  match Text.hexValue c with
  | some d => d < radix
  | none => false

/-- A number after a mark such as `0x`. Low lines may stand among its digits; an integer without
bound does not start with one. -/
private def radixNumber (c : Cursor) (radix : Nat) : Token × Cursor :=
  let start := c.drop 2
  let digits := start.rest.takeWhile fun ch => ch = '_' || isDigitOf radix ch
  let last := start.drop digits.length
  if !(digits.any (isDigitOf radix)) then (.bad (.digitExpected radix), last)
  else
    match last.rest with
    | 'n' :: _ =>
      if digits.head? = some '_' then (.bad .misplacedSeparator, last.drop 1)
      else (.bigInt (c.textTo last), last.drop 1)
    | _ => finishNumber c last

private def exponent (c last : Cursor) : Token × Cursor :=
  let digits (start : Cursor) : Token × Cursor :=
    let digits := start.rest.takeWhile isDigitOrBreak
    let stop := start.drop digits.length
    if digits.any Char.isDigit then finishNumber c stop else (.bad (.digitExpected 10), stop)
  match last.rest with
  | e :: sign :: _ =>
    if e = 'e' || e = 'E' then digits (last.drop (if sign = '+' || sign = '-' then 2 else 1))
    else finishNumber c last
  | [e] =>
    if e = 'e' || e = 'E' then (.bad .exponentExpected, last.drop 1) else finishNumber c last
  | [] => finishNumber c last

/-- A number. One with a leading zero is no integer without bound, and with octal digits only it has
no fraction. -/
def number (c : Cursor) : Token × Cursor :=
  match c.rest with
  | '0' :: 'x' :: _ | '0' :: 'X' :: _ => radixNumber c 16
  | '0' :: 'o' :: _ | '0' :: 'O' :: _ => radixNumber c 8
  | '0' :: 'b' :: _ | '0' :: 'B' :: _ => radixNumber c 2
  | _ =>
    let whole := c.rest.takeWhile isDigitOrBreak
    let after := c.drop whole.length
    let leadingZero := whole.length > 1 && whole.head? = some '0'
    if leadingZero && whole.all fun d => d = '_' || isDigitOf 8 d then finishNumber c after
    else
      match after.rest with
      | '.' :: _ => exponent c ((after.drop 1).dropWhile isDigitOrBreak)
      | 'n' :: _ =>
        if leadingZero then finishNumber c after else (.bigInt (c.textTo after), after.drop 1)
      | _ => exponent c after

/-- A bad escape sequence comes with the place after it. The first argument bounds the number of
rounds: it is at least as long as the unread text. -/
private def stringEnd (quote : Char) :
    List Char → Cursor → List Char → Except (SyntaxFault × Cursor) (List Char × Cursor)
  | [], c, acc => .ok (acc, c)
  | _ :: fuel, c, acc =>
    match c.rest with
    | [] => .ok (acc, c)
    | '\\' :: rest =>
      match Escape.read false rest with
      | .error fault => .error (fault, Escape.afterBad c)
      | .ok (chars, count) => stringEnd quote fuel (c.drop (count + 1)) (chars.reverse ++ acc)
    | ch :: _ =>
      if ch = quote then .ok (acc, c.drop 1)
      else if ch = '\n' || ch = '\r' then .ok (acc, c)
      else stringEnd quote fuel (c.drop 1) (ch :: acc)

/-- A string after its opening quote. One that is not closed ends with its line. -/
def string (c : Cursor) (quote : Char) : Token × Cursor :=
  match stringEnd quote c.rest c [] with
  | .ok (chars, last) => (.string (String.ofList chars.reverse), last)
  | .error (fault, last) => (.bad fault, last)

private def endsPattern (c : Char) : Bool :=
  c = '\n' || c = '\r'

/-- The number of characters of a regular expression and its closing slash, with `count` before. -/
private def patternLength : Bool → Nat → List Char → Option Nat
  | _, _, [] => none
  | inClass, count, '\\' :: c :: cs =>
    if endsPattern c then none else patternLength inClass (count + 2) cs
  | inClass, count, c :: cs =>
    if endsPattern c then none
    else if c = '[' then patternLength true (count + 1) cs
    else if c = ']' then patternLength false (count + 1) cs
    else if c = '/' && !inClass then some (count + 1)
    else patternLength inClass (count + 1) cs

/-- A regular expression after its opening slash, with its flags: a name that starts with a letter
of one byte. One that is not closed ends with its line. -/
def regExp (c : Cursor) : Token × Cursor :=
  match patternLength false 0 c.rest with
  | some count =>
    let after := c.drop count
    if after.followedByName then
      match after.name with
      | (.word flags _, last) => (.regExp flags, last)
      | other => other
    else (.regExp "", after)
  | none => (.bad .unterminatedRegExp, c.dropWhile fun ch => !endsPattern ch)

inductive TemplateEnd where
  | closed
  | substitution
  | unterminated
deriving DecidableEq

/-- Goes past template text, with the last bad escape sequence in it. The first argument bounds the
number of rounds. -/
private def templateFrom :
    List Char → Cursor → Option SyntaxFault → TemplateEnd × Option SyntaxFault × Cursor
  | [], c, fault => (.unterminated, fault, c)
  | _ :: fuel, c, fault =>
    match c.rest with
    | [] => (.unterminated, fault, c)
    | '\x60' :: _ => (.closed, fault, c.drop 1)
    | '$' :: '\x7b' :: _ => (.substitution, fault, c.drop 2)
    | '\\' :: rest =>
      match Escape.read true rest with
      | .ok (_, count) => templateFrom fuel (c.drop (count + 1)) fault
      | .error found => templateFrom fuel (c.drop 2) (some found)
    | _ :: _ => templateFrom fuel (c.drop 1) fault

/-- Goes past template text, with the last bad escape sequence in it. -/
def templateText (c : Cursor) : TemplateEnd × Option SyntaxFault × Cursor :=
  templateFrom c.rest c none

end Cursor

end SideEffectLint
