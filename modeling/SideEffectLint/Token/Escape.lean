import SideEffectLint.Text.Hex
import SideEffectLint.Text.Identifier
import SideEffectLint.Token.Basic
import SideEffectLint.Token.Blanks

/-!
Escape sequences of strings, templates and names, read from the text after the backslash. Low lines
among hex digits are passed over.
-/

namespace SideEffectLint

namespace Escape

/-- At most `n` hex digits, and the number of characters they take. -/
private def hexDigits : Nat → List Char → List Nat × Nat
  | 0, _ | _, [] => ([], 0)
  | n + 1, c :: cs =>
    if c = '_' then
      let rest := hexDigits (n + 1) cs
      (rest.1, rest.2 + 1)
    else
      match Text.hexValue c with
      | some d =>
        let rest := hexDigits n cs
        (d :: rest.1, rest.2 + 1)
      | none => ([], 0)

private def valueOf (digits : List Nat) : Nat :=
  digits.foldl (fun n d => 16 * n + d) 0

def fixedHex (n : Nat) (cs : List Char) : Option (Nat × Nat) :=
  let (digits, length) := hexDigits n cs
  if digits.length = n then some (valueOf digits, length) else none

def isSurrogate (code : Nat) : Bool :=
  0xd800 ≤ code && code < 0xe000

/-- Half of a surrogate pair in four digits, joined with the other half if an escape sequence for
that comes next; `wanted` tells what such a sequence lacks. -/
private def halfPair (wanted : String) (cs : List Char) : Except SyntaxFault (Nat × Nat) :=
  match fixedHex 4 cs with
  | none => .error (.badEscape wanted)
  | some (high, length) =>
    let alone := .ok (high, length)
    match cs.drop length with
    | '\\' :: 'u' :: ds =>
      if 0xd800 ≤ high && high < 0xdc00 then
        match fixedHex 4 ds with
        | none => .error (.badEscape wanted)
        | some (low, count) =>
          if 0xdc00 ≤ low && low < 0xe000 then
            .ok (0x10000 + (high - 0xd800) * 0x400 + (low - 0xdc00), length + 2 + count)
          else alone
      else alone
    | _ => alone

/-- The digits between braces: at most 256 of them are read. -/
private def bracedHex (cs : List Char) : Except SyntaxFault (Nat × Nat) :=
  let (digits, length) := hexDigits 256 cs
  let value := valueOf digits
  if digits.isEmpty || 0x100000000 ≤ value then .error (.badEscape "1-6 hex characters")
  else if 0x110000 ≤ value then
    .error (.badEscape "1-6 hex characters in the range 0 to 10FFFF.")
  else if isSurrogate value then halfPair "1-6 hex characters" cs
  else .ok (value, length)

/-- A code after `\u`, and the number of characters it is written with. Two escape sequences that
make a surrogate pair are one code; one that stands alone is its own code. -/
def unicode (cs : List Char) : Except SyntaxFault (Nat × Nat) :=
  match cs with
  | '\x7b' :: ds => do
    let (code, length) ← bracedHex ds
    if (ds.drop length).head? = some '\x7d' then pure (code, length + 2)
    else .error .unclosedEscape
  | _ =>
    match fixedHex 4 cs with
    | none => .error (.badEscape "4 hex characters")
    | some (code, length) =>
      if isSurrogate code then halfPair "4 hex characters" cs else .ok (code, length)

/-- The character of a code in a string. The replacement character stands for half of a surrogate
pair. -/
private def charOf (code : Nat) : Char :=
  if isSurrogate code then '\ufffd' else Char.ofNat code

/-- The characters of a code in a name. Half of a surrogate pair keeps its escape sequence. -/
def nameChars (code : Nat) : List Char :=
  if isSurrogate code then '\\' :: 'u' :: (Text.hex 4 code).map Char.toUpper
  else [Char.ofNat code]

private def isOctal (c : Char) : Bool :=
  '0' ≤ c && c ≤ '7'

/-- Up to three octal digits with a value below 256. -/
private def octal (cs : List Char) : Char × Nat :=
  let digits := (cs.take 3).takeWhile isOctal
  let digits := if digits.length = 3 && digits.headD '0' > '3' then digits.take 2 else digits
  (Char.ofNat (digits.foldl (fun n c => 8 * n + (c.toNat - 48)) 0), digits.length)

/-- The text of one escape sequence, empty for an escaped line end, and the number of characters it
is written with. A template holds no octal ones. -/
def read (inTemplate : Bool) (cs : List Char) : Except SyntaxFault (List Char × Nat) :=
  match cs with
  | [] => .error .badStringEscape
  | 'n' :: _ => .ok (['\n'], 1)
  | 'r' :: _ => .ok (['\r'], 1)
  | 't' :: _ => .ok (['\t'], 1)
  | 'b' :: _ => .ok (['\x08'], 1)
  | 'v' :: _ => .ok (['\x0b'], 1)
  | 'f' :: _ => .ok (['\x0c'], 1)
  | '\r' :: '\n' :: _ => .ok ([], 2)
  | 'x' :: rest =>
    match fixedHex 2 rest with
    | some (code, length) => .ok ([Char.ofNat code], length + 1)
    | none => .error (.badEscape "2 hex characters")
  | 'u' :: rest => (unicode rest).map fun r => ([charOf r.1], r.2 + 1)
  | c :: rest =>
    if Text.isLineTerminator c then .ok ([], 1)
    else if isOctal c then
      let isZero := c = '0' && !isOctal (rest.headD ' ')
      if inTemplate && !isZero then .error .octalEscape
      else
        let r := octal (c :: rest)
        .ok ([r.1], r.2)
    else .ok ([c], 1)

private def isHexOrBreak (c : Char) : Bool :=
  c = '_' || (Text.hexValue c).isSome

/-- Where reading goes on after the bad digits of `\u`, in front of which `c` stands. -/
def afterBadCode (c : Cursor) : Cursor :=
  match c.rest with
  | '\x7b' :: _ => (c.drop 1).dropWhile isHexOrBreak
  | _ => c.dropWhile isHexOrBreak

/-- Where reading goes on after a bad escape sequence in front of which `c` stands. -/
def afterBad (c : Cursor) : Cursor :=
  match c.rest.drop 1 with
  | 'x' :: _ => (c.drop 2).dropWhile isHexOrBreak
  | 'u' :: _ => afterBadCode (c.drop 2)
  | _ => c.drop 1

end Escape

end SideEffectLint
