import SideEffectLint.Json.Fault
import SideEffectLint.Text.Cursor

/-!
Reading from a text. Reading a value stops at the first fault of the text; a value that is not the
wanted one may be refused without a place, and then what encloses it tells the place.
-/

namespace SideEffectLint.Json

inductive Reply (α : Type) where
  | done (value : α) (after : Cursor)
  | failed (fault : Fault) (offset : Nat)
  | refused (cause : Mismatch) (after : Cursor)

/-- Reads a value that may open so many brackets inside of each other. -/
def Reader (α : Type) : Type :=
  Nat → Cursor → Reply α

namespace Reader

instance : Monad Reader where
  pure value := fun _ c => .done value c
  bind r f := fun depth c =>
    match r depth c with
    | .done value c => f value depth c
    | .failed fault offset => .failed fault offset
    | .refused cause c => .refused cause c

variable {α σ : Type}

def isBlank (c : Char) : Bool :=
  c = ' ' || c = '\n' || c = '\t' || c = '\r'

def skipBlank (c : Cursor) : Cursor :=
  c.dropWhile isBlank

/-- The offset past the next byte, if there is one. -/
def pastNext (c : Cursor) : Nat :=
  if c.rest.isEmpty then c.offset else c.offset + 1

/-- The text is at fault at the next byte. -/
def malformed (cause : Malformation) : Reader α :=
  fun _ c => .failed (.malformed cause) (pastNext c)

def refuse (cause : Mismatch) : Reader α :=
  fun _ c => .refused cause c

/-- A value that is refused is so where reading has come to. -/
def placed (r : Reader α) : Reader α :=
  fun depth c =>
    match r depth c with
    | .refused cause c => .failed (.mismatch cause) c.offset
    | reply => reply

def ofExcept : Except Mismatch α → Reader α
  | .ok value => pure value
  | .error cause => refuse cause

def advance (n : Nat) : Reader Unit :=
  fun _ c => .done () (c.drop n)

/-- The next character after blanks. -/
def peek : Reader (Option Char) :=
  fun _ c =>
    let c := skipBlank c
    .done c.rest.head? c

/-- The first character of a value, which has to be there. -/
def peekValue : Reader Char := do
  match ← peek with
  | some c => pure c
  | none => malformed .endInValue

/-- The first list bounds the number of rounds: it is at least as long as the unread text. -/
def repeatFrom (step : σ → Reader (σ ⊕ α)) (fuel : List Char) (acc : σ) : Reader α :=
  fun depth c =>
    match step acc depth c with
    | .done (.inl acc) c =>
      match fuel with
      | [] => malformed .tooDeep depth c
      | _ :: fuel => repeatFrom step fuel acc depth c
    | .done (.inr value) c => .done value c
    | .failed fault offset => .failed fault offset
    | .refused cause c => .refused cause c

/-- Repeats a step until it gives an answer. Every round but the last reads a character. -/
def repeating (init : σ) (step : σ → Reader (σ ⊕ α)) : Reader α :=
  fun depth c => repeatFrom step c.rest init depth c

/-- Goes past the end of a list, as far as it can, and tells what is wrong there. -/
def closeList (c : Cursor) : Cursor × Option Malformation :=
  let c := skipBlank c
  match c.rest with
  | [] => (c, some .endInList)
  | ']' :: _ => (c.drop 1, none)
  | ',' :: _ =>
    let c := skipBlank (c.drop 1)
    (c, some (if c.rest.head? = some ']' then .trailingComma else .trailingText))
  | _ => (c, some .trailingText)

/-- Goes past the end of an object, as far as it can, and tells what is wrong there. -/
def closeObject (c : Cursor) : Cursor × Option Malformation :=
  let c := skipBlank c
  match c.rest with
  | [] => (c, some .endInObject)
  | '\x7d' :: _ => (c.drop 1, none)
  | ',' :: _ => (c, some .trailingComma)
  | _ => (c, some .trailingText)

/-- What an opening bracket encloses; it is refused past the closing one. -/
def opened (r : Reader α) : Reader α :=
  fun depth c =>
    match depth with
    | 0 => .failed (.malformed .tooDeep) (pastNext c)
    | depth + 1 => r depth (c.drop 1)

def enclosed (close : Cursor → Cursor × Option Malformation) (r : Reader α) : Reader α :=
  fun depth c =>
    match opened r depth c with
    | .done value c =>
      match close c with
      | (c, none) => .done value c
      | (c, some cause) => .failed (.malformed cause) (pastNext c)
    | .failed fault offset => .failed fault offset
    | .refused cause c => .failed (.mismatch cause) (close c).1.offset

/-- Whether a list goes on, with the comma in front of an item that is not the first. -/
def hasItem (first : Bool) : Reader Bool := do
  match ← peek with
  | none => malformed .endInList
  | some ']' => pure false
  | some c =>
    if first then pure true
    else if c = ',' then
      advance 1
      match ← peek with
      | none => malformed .endInValue
      | some ']' => malformed .trailingComma
      | some _ => pure true
    else malformed .commaOrBracketExpected

/-- Whether an object goes on, with the comma in front of a member that is not the first. -/
def hasMember (first : Bool) : Reader Bool := do
  match ← peek with
  | none => malformed .endInObject
  | some '\x7d' => pure false
  | some c =>
    if first then
      if c = '"' then pure true else malformed .keyExpected
    else if c = ',' then
      advance 1
      match ← peek with
      | none => malformed .endInValue
      | some '\x7d' => malformed .trailingComma
      | some '"' => pure true
      | some _ => malformed .keyExpected
    else malformed .commaOrBraceExpected

def colon : Reader Unit := do
  match ← peek with
  | none => malformed .endInObject
  | some ':' => advance 1
  | some _ => malformed .colonExpected

end Reader

end SideEffectLint.Json
