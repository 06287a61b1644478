/-!
Texts of the system. Names and paths are bytes, which need not be a text in UTF-8; where one is shown, a
mark stands for each piece of it that is no part of a text.
-/

namespace SideEffectLint

structure SystemText where
  bytes : List UInt8
deriving Repr, DecidableEq, Inhabited

namespace SystemText

/-- The bytes of a text in UTF-8. -/
def ofString (text : String) : SystemText :=
  ⟨text.toUTF8.data.toList⟩

instance : Coe String SystemText :=
  ⟨ofString⟩

instance : Append SystemText :=
  ⟨fun a b => ⟨a.bytes ++ b.bytes⟩⟩

/-- Texts of the system are put in order by their bytes. -/
instance : Ord SystemText :=
  ⟨fun a b => compare a.bytes b.bytes⟩

/-- A character of which the first bytes have been read. The next byte has to be one from `low` to
`high`, and no byte that is a character by itself is. -/
structure Begun where
  /-- The number of the character as far as it has been read. -/
  number : Nat
  /-- So many bytes are missing, besides the next one. -/
  behind : Nat
  low : UInt8
  high : UInt8
  le_low : 0x80 ≤ low
deriving Repr, DecidableEq

/-- What a byte begins that is no character by itself. -/
def begin? (b : UInt8) : Option Begun :=
  if b < 0xc2 then none
  else if b < 0xe0 then some ⟨b.toNat % 32, 0, 0x80, 0xbf, by decide⟩
  else if b = 0xe0 then some ⟨0, 1, 0xa0, 0xbf, by decide⟩
  else if b = 0xed then some ⟨13, 1, 0x80, 0x9f, by decide⟩
  else if b < 0xf0 then some ⟨b.toNat % 16, 1, 0x80, 0xbf, by decide⟩
  else if b = 0xf0 then some ⟨0, 2, 0x90, 0xbf, by decide⟩
  else if b < 0xf4 then some ⟨b.toNat % 8, 2, 0x80, 0xbf, by decide⟩
  else if b = 0xf4 then some ⟨4, 2, 0x80, 0x8f, by decide⟩
  else none

/-- Stands for bytes that are no part of a text. -/
def mark : Char :=
  '\ufffd'

/-- The characters that a byte completes where none has been begun, and the one that it begins. -/
def readFirst (b : UInt8) : List Char × Option Begun :=
  if b < 0x80 then ([Char.ofNat b.toNat], none)
  else
    match begin? b with
    | some begun => ([], some begun)
    | none => ([mark], none)

/-- A byte that cannot be the next one of a character is read as the first of another. -/
def readNext (begun : Begun) (b : UInt8) : List Char × Option Begun :=
  if begun.low ≤ b ∧ b ≤ begun.high then
    let number := 64 * begun.number + b.toNat % 64
    match begun.behind with
    | 0 => ([Char.ofNat number], none)
    | behind + 1 => ([], some ⟨number, behind, 0x80, 0xbf, by decide⟩)
  else
    let (cs, next) := readFirst b
    (mark :: cs, next)

def read : Option Begun → UInt8 → List Char × Option Begun
  | none, b => readFirst b
  | some begun, b => readNext begun b

/-- The characters of bytes, of which some may have been read. -/
def chars : Option Begun → List UInt8 → List Char
  | none, [] => []
  | some _, [] => [mark]
  | begun, b :: bs => (read begun b).1 ++ chars (read begun b).2 bs

/-- The text in messages and reports. -/
def shown (text : SystemText) : String :=
  String.ofList (chars none text.bytes)

/-- The text that this is, if it is one: what is shown for it is the same then. -/
def text? (text : SystemText) : Option String :=
  if ofString text.shown = text then some text.shown else none

end SystemText

end SideEffectLint
