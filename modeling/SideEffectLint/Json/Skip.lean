import SideEffectLint.Json.Literal

/-!
Skipping a value that nobody wants. It may nest to any depth, and its strings and numbers are only
looked at as far as it takes to find their ends.
-/

namespace SideEffectLint.Json

namespace Reader

/-- Goes past the rest of a string. An escape has to be one by its form. -/
def skipStringFrom : List Char → Nat → Reply Unit
  | [], offset => .failed (.malformed .endInString) offset
  | '"' :: cs, offset => .done () ⟨cs, offset + 1⟩
  | '\\' :: 'u' :: a :: b :: c :: d :: cs, offset =>
    if [a, b, c, d].all fun h => (Text.hexValue h).isSome then skipStringFrom cs (offset + 6)
    else .failed (.malformed .badEscape) (offset + 6)
  | '\\' :: 'u' :: cs, offset =>
    let length := Cursor.utf8Length cs
    if length < 4 then .failed (.malformed .endInString) (offset + 2 + length)
    else .failed (.malformed .badEscape) (offset + 6)
  | ['\\'], offset => .failed (.malformed .endInString) (offset + 1)
  | '\\' :: c :: cs, offset =>
    if "\"\\/bfnrt".toList.contains c then skipStringFrom cs (offset + 2)
    else .failed (.malformed .badEscape) (offset + 2)
  | c :: cs, offset =>
    if c < ' ' then .failed (.malformed .controlCharacter) offset
    else skipStringFrom cs (offset + c.utf8Size)

def skipString : Reader Unit :=
  fun _ c => skipStringFrom (c.rest.drop 1) (c.offset + 1)

/-- Goes past one digit or more. -/
def skipDigits : Reader Unit := do
  if (← digits).isEmpty then malformed .badNumber

def nextIs (p : Char → Bool) : Reader Bool :=
  fun _ c => .done (c.rest.head?.any p) c

def skipExponent : Reader Unit := do
  advance 1
  if ← nextIs fun c => c = '+' || c = '-' then advance 1
  skipDigits

def isExponentMark (c : Char) : Bool :=
  c = 'e' || c = 'E'

def skipAnyExponent : Reader Unit := do
  if ← nextIs isExponentMark then skipExponent

def skipFraction : Reader Unit := do
  advance 1
  skipDigits
  skipAnyExponent

def skipAfterWhole : Reader Unit := do
  if ← nextIs (· = '.') then skipFraction else skipAnyExponent

/-- Goes past a number without its sign. -/
def skipUnsigned : Reader Unit := do
  if ← nextIs (· = '0') then
    advance 1
    if ← nextIs Char.isDigit then malformed .badNumber
  else skipDigits
  skipAfterWhole

def skipNumber : Reader Unit := do
  if ← nextIs (· = '-') then advance 1
  skipUnsigned

/-- Goes past a scalar that starts with the character `first`, which is the next one. -/
def skipScalar (first : Char) : Reader Unit :=
  match first with
  | '"' => skipString
  | 'n' => word ['n', 'u', 'l', 'l']
  | 't' => word ['t', 'r', 'u', 'e']
  | 'f' => word ['f', 'a', 'l', 's', 'e']
  | _ => if first = '-' || first.isDigit then skipNumber else malformed .valueExpected

/-- A bracket that is not closed yet. -/
inductive Bracket where
  | list
  | object
deriving DecidableEq

namespace Bracket

def close : Bracket → Char
  | list => ']'
  | object => '\x7d'

end Bracket

/-- Goes past the key and colon of a member. -/
def skipKey : Reader Unit := do
  match ← peek with
  | none => malformed .endInObject
  | some '"' =>
    skipString
    colon
  | some _ => malformed .keyExpected

/-- Goes past brackets that close, up to the next value inside of those left open. `closed` tells
that a value came just before. -/
def skipBetween : List Bracket → Bool → Reader (List Bracket)
  | [], _ => pure []
  | b :: bs, closed => do
    match ← peek with
    | none => malformed (if b = .list then .endInList else .endInObject)
    | some c =>
      if c = b.close then
        advance 1
        skipBetween bs true
      else if closed && c != ',' then
        malformed (if b = .list then .commaOrBracketExpected else .commaOrBraceExpected)
      else
        if closed then advance 1
        if b = .object then skipKey
        pure (b :: bs)

/-- Goes past a scalar or an opening bracket. It tells the brackets that are open behind it, and
whether a value came to its end there. -/
def skipStart (brackets : List Bracket) : Reader (List Bracket × Bool) := do
  match ← peekValue with
  | '[' =>
    advance 1
    pure (.list :: brackets, false)
  | '\x7b' =>
    advance 1
    pure (.object :: brackets, false)
  | first =>
    skipScalar first
    pure (brackets, true)

/-- Goes on from the start of a value to that of the next one inside of the brackets that are open. -/
def skipStep (brackets : List Bracket) : Reader (List Bracket ⊕ Unit) := do
  let (inner, closed) ← skipStart brackets
  match ← skipBetween inner closed with
  | [] => pure (.inr ())
  | left => pure (.inl left)

/-- Goes past one value. -/
def skip : Reader Unit :=
  repeating [] skipStep

end Reader

end SideEffectLint.Json
