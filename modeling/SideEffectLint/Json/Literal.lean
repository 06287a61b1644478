import SideEffectLint.Json.Reader
import SideEffectLint.Text.Hex

/-!
Reading scalars: words, strings and numbers.
-/

namespace SideEffectLint.Json

namespace Reader

/-- Goes past the characters of a word. -/
def word : List Char → Reader Unit
  | [] => pure ()
  | w :: ws => fun depth c =>
    match c.rest with
    | [] => .failed (.malformed .endInValue) c.offset
    | ch :: _ =>
      if ch = w then word ws depth (c.drop 1) else .failed (.malformed .wordExpected) (pastNext c)

def hexStop (cause : Malformation) (digits : List Char) (offset : Nat) : Reply α :=
  let length := Cursor.utf8Length (digits.take 4)
  if length < 4 then .failed (.malformed .endInString) (offset + length)
  else .failed (.malformed cause) (offset + 4)

def hexOf (a b c d : Char) : Option Nat := do
  pure (((← Text.hexValue a) * 16 + (← Text.hexValue b)) * 16 * 16 +
    (← Text.hexValue c) * 16 + (← Text.hexValue d))

def escaped (c : Char) : Option Char :=
  match c with
  | '"' => some '"'
  | '\\' => some '\\'
  | '/' => some '/'
  | 'b' => some '\x08'
  | 'f' => some '\x0c'
  | 'n' => some '\n'
  | 'r' => some '\r'
  | 't' => some '\t'
  | _ => none

/-- The rest of a string after its opening quote, or after the first half of a surrogate pair. -/
def stringFrom : Option Nat → List Char → List Char → Nat → Reply String
  | _, _, [], offset => .failed (.malformed .endInString) offset
  | some high, acc, '\\' :: 'u' :: a :: b :: c :: d :: cs, offset =>
    match hexOf a b c d with
    | none => hexStop .badEscape (a :: b :: c :: d :: cs) (offset + 2)
    | some low =>
      if 0xdc00 ≤ low && low < 0xe000 then
        stringFrom none
          (Char.ofNat (0x10000 + (high - 0xd800) * 0x400 + (low - 0xdc00)) :: acc) cs (offset + 6)
      else .failed (.malformed .loneSurrogate) (offset + 6)
  | some _, _, '\\' :: 'u' :: cs, offset => hexStop .badEscape cs (offset + 2)
  | some _, _, ['\\'], offset => .failed (.malformed .endInString) (offset + 1)
  | some _, _, '\\' :: _, offset => .failed (.malformed .unfinishedSurrogatePair) (offset + 2)
  | some _, _, _, offset => .failed (.malformed .unfinishedSurrogatePair) (offset + 1)
  | none, acc, '"' :: cs, offset => .done (String.ofList acc.reverse) ⟨cs, offset + 1⟩
  | none, acc, '\\' :: 'u' :: a :: b :: c :: d :: cs, offset =>
    match hexOf a b c d with
    | none => hexStop .badEscape (a :: b :: c :: d :: cs) (offset + 2)
    | some code =>
      if 0xdc00 ≤ code && code < 0xe000 then .failed (.malformed .loneSurrogate) (offset + 6)
      else if 0xd800 ≤ code && code < 0xdc00 then stringFrom (some code) acc cs (offset + 6)
      else stringFrom none (Char.ofNat code :: acc) cs (offset + 6)
  | none, _, '\\' :: 'u' :: cs, offset => hexStop .badEscape cs (offset + 2)
  | none, _, ['\\'], offset => .failed (.malformed .endInString) (offset + 1)
  | none, acc, '\\' :: c :: cs, offset =>
    match escaped c with
    | some c => stringFrom none (c :: acc) cs (offset + 2)
    | none => .failed (.malformed .badEscape) (offset + 2)
  | none, acc, c :: cs, offset =>
    if c < ' ' then .failed (.malformed .controlCharacter) (offset + 1)
    else stringFrom none (c :: acc) cs (offset + c.utf8Size)

/-- A string from its opening quote on. -/
def string : Reader String :=
  fun _ c => stringFrom none [] (c.rest.drop 1) (c.offset + 1)

/-- Takes digits into a number as long as it fits 64 bits, and counts those left over. -/
def keep : List Char → Nat → Nat × Nat
  | [], value => (value, 0)
  | d :: ds, value =>
    let next := 10 * value + (d.toNat - 48)
    if next < UInt64.size then keep ds next else (value, ds.length + 1)

private def tenTo (n : Nat) : Float :=
  Float.ofScientific 1 false n

private def divided (x : Float) (n : Nat) : Float :=
  if n ≤ 308 then x / tenTo n
  else if x == 0 then x
  else divided (x / tenTo 308) (n - 308)
termination_by n

/-- The number `value * 10 ^ exponent` in floating point arithmetic, unless it is too large. -/
def fraction (negative : Bool) (value : Nat) (exponent : Int) : Option Number :=
  let x := Float.ofNat value
  let result : Option Float :=
    if exponent < 0 then some (divided x exponent.natAbs)
    else if 308 < exponent then (if value = 0 then some x else none)
    else
      let y := x * tenTo exponent.toNat
      if y.isInf then none else some y
  result.map fun y => .fraction (.ofFloat (if negative then -y else y))

def whole (negative : Bool) (value : Nat) : Number :=
  if !negative then .whole value
  else if 0 < value ∧ value ≤ UInt64.size / 2 then .whole (-value)
  else .fraction (.ofFloat (-(Float.ofNat value)))

def finish (number : Option Number) : Reader Number :=
  fun _ c =>
    match number with
    | some n => .done n c
    | none => .failed (.malformed .numberOutOfRange) c.offset

def digits : Reader (List Char) :=
  fun _ c => .done (c.rest.takeWhile Char.isDigit) (c.dropWhile Char.isDigit)

def next : Reader (Option Char) :=
  fun _ c => .done c.rest.head? c

/-- The digits of an exponent up to the first with which it exceeds 31 bits. -/
def bounded : List Char → Nat → Nat → Nat ⊕ Nat
  | [], value, _ => .inl value
  | d :: ds, value, count =>
    let next := 10 * value + (d.toNat - 48)
    if next < UInt32.size / 2 then bounded ds next (count + 1) else .inr (count + 1)

/-- The digits of an exponent behind its sign; it is below zero or not. -/
def exponentDigits (negative : Bool) (value : Nat) (shift : Int) (below : Bool) : Reader Number :=
  fun depth c =>
    let ds := c.rest.takeWhile Char.isDigit
    let after := c.dropWhile Char.isDigit
    match ds with
    | [] =>
      .failed (.malformed (if c.rest.isEmpty then .endInValue else .badNumber)) (pastNext c)
    | _ =>
      match bounded ds 0 0 with
      | .inl e =>
        finish (fraction negative value (shift + if below then -(e : Int) else e)) depth after
      | .inr count =>
        if value ≠ 0 ∧ !below then .failed (.malformed .numberOutOfRange) (c.offset + count)
        else finish (fraction negative 0 0) depth after

def exponent (negative : Bool) (value : Nat) (shift : Int) : Reader Number := do
  advance 1
  match ← next with
  | some '+' =>
    advance 1
    exponentDigits negative value shift false
  | some '-' =>
    advance 1
    exponentDigits negative value shift true
  | _ => exponentDigits negative value shift false

def afterPoint (negative : Bool) (value : Nat) (shift : Int) : Reader Number := do
  advance 1
  let ds ← digits
  if ds.isEmpty then
    match ← next with
    | none => malformed .endInValue
    | some _ => malformed .badNumber
  else
    let (value, dropped) := keep ds value
    let shift := shift - (ds.length - dropped : Nat)
    match ← next with
    | some 'e' | some 'E' => exponent negative value shift
    | _ => finish (fraction negative value shift)

/-- A number after the digits in front of its point; `dropped` of them are not in `value`. -/
def afterWhole (negative : Bool) (value dropped : Nat) : Reader Number := do
  match ← next with
  | some '.' => afterPoint negative value dropped
  | some 'e' | some 'E' => exponent negative value dropped
  | some c =>
    if c.isDigit then malformed .badNumber
    else if dropped = 0 then pure (whole negative value)
    else finish (fraction negative value dropped)
  | none =>
    if dropped = 0 then pure (whole negative value)
    else finish (fraction negative value dropped)

/-- A number after its sign. The first digit is zero only if it stands alone. -/
def unsigned (negative : Bool) : Reader Number := do
  match ← next with
  | none => malformed .endInValue
  | some first =>
    if !first.isDigit then malformed .badNumber
    else
      let ds ← if first = '0' then (do advance 1; pure ['0']) else digits
      let (value, dropped) := keep ds 0
      afterWhole negative value dropped

/-- A number from its sign or first digit on. -/
def number : Reader Number := do
  match ← next with
  | some '-' =>
    advance 1
    unsigned true
  | _ => unsigned false

/-- A scalar that starts with the character `first`, which is the next one. -/
def scalar (first : Char) : Reader Scalar := do
  match first with
  | 'n' =>
    word ['n', 'u', 'l', 'l']
    pure .null
  | 't' =>
    word ['t', 'r', 'u', 'e']
    pure (.bool true)
  | 'f' =>
    word ['f', 'a', 'l', 's', 'e']
    pure (.bool false)
  | '"' => return .string (← string)
  | _ =>
    if first = '-' || first.isDigit then return .number (← number)
    else malformed .valueExpected

end Reader

end SideEffectLint.Json
