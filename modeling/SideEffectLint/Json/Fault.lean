import SideEffectLint.Json.Value
import SideEffectLint.Text.Quoted

/-!
What can be wrong with a JSON text: it is no JSON, or its value is not the wanted one.
-/

namespace SideEffectLint.Json

/-- How a text fails to be JSON. -/
inductive Malformation where
  | endInValue
  | endInList
  | endInObject
  | endInString
  | valueExpected
  | wordExpected
  | colonExpected
  | commaOrBracketExpected
  | commaOrBraceExpected
  | keyExpected
  | trailingComma
  | trailingText
  | badNumber
  | numberOutOfRange
  | badEscape
  | loneSurrogate
  | unfinishedSurrogatePair
  | controlCharacter
  | tooDeep
deriving Repr, DecidableEq, Inhabited

namespace Malformation

def message : Malformation → String
  | endInValue => "EOF while parsing a value"
  | endInList => "EOF while parsing a list"
  | endInObject => "EOF while parsing an object"
  | endInString => "EOF while parsing a string"
  | valueExpected => "expected value"
  | wordExpected => "expected ident"
  | colonExpected => "expected `:`"
  | commaOrBracketExpected => "expected `,` or `]`"
  | commaOrBraceExpected => "expected `,` or `\x7d`"
  | keyExpected => "key must be a string"
  | trailingComma => "trailing comma"
  | trailingText => "trailing characters"
  | badNumber => "invalid number"
  | numberOutOfRange => "number out of range"
  | badEscape => "invalid escape"
  | loneSurrogate => "lone leading surrogate in hex escape"
  | unfinishedSurrogatePair => "unexpected end of hex escape"
  | controlCharacter => "control character (\\u0000-\\u001F) found while parsing a string"
  | tooDeep => "recursion limit exceeded"

end Malformation

/-- What stands where something else is wanted. -/
inductive Found where
  | scalar (value : Scalar)
  | sequence
  | map
deriving Repr, DecidableEq, Inhabited

namespace Found

def ofValue : Value → Found
  | .scalar s => .scalar s
  | .array _ => .sequence
  | .object _ => .map

def message : Found → String
  | scalar .null => "null"
  | scalar (.bool b) => "boolean `" ++ toString b ++ "`"
  | scalar (.number (.whole n)) => "integer `" ++ toString n ++ "`"
  | scalar (.number (.fraction d)) => "floating point `" ++ d.text ++ "`"
  | scalar (.string s) => "string " ++ Text.quoted s
  | sequence => "sequence"
  | map => "map"

end Found

/-- How a value fails to be the wanted one. -/
inductive Mismatch where
  | wrongType (found : Found) (wanted : String)
  | wrongValue (found : Found) (wanted : String)
  | tooShort (length : Nat) (wanted : String)
  /-- Of `length` items the first `taken` have a meaning. -/
  | tooLong (length taken : Nat)
  | missingField (name : String)
  | duplicateField (name : String)
  | unknownField (name : String) (known : List String)
  | unknownVariant (name : String) (known : List String)
deriving Repr, DecidableEq, Inhabited

namespace Mismatch

private def ticked (name : String) : String :=
  "`" ++ name ++ "`"

private def oneOf (names : List String) : String :=
  match names with
  | [] => "nothing"
  | [name] => ticked name
  | [first, second] => ticked first ++ " or " ++ ticked second
  | names => "one of " ++ String.intercalate ", " (names.map ticked)

private def items (n : Nat) : String :=
  toString n ++ (if n = 1 then " element" else " elements") ++ " in sequence"

def message : Mismatch → String
  | wrongType found wanted => "invalid type: " ++ found.message ++ ", expected " ++ wanted
  | wrongValue found wanted => "invalid value: " ++ found.message ++ ", expected " ++ wanted
  | tooShort length wanted => "invalid length " ++ toString length ++ ", expected " ++ wanted
  | tooLong length taken => "invalid length " ++ toString length ++ ", expected " ++ items taken
  | missingField name => "missing field " ++ ticked name
  | duplicateField name => "duplicate field " ++ ticked name
  | unknownField name known => "unknown field " ++ ticked name ++ ", expected " ++ oneOf known
  | unknownVariant name known => "unknown variant " ++ ticked name ++ ", expected " ++ oneOf known

end Mismatch

inductive Fault where
  | malformed (cause : Malformation)
  | mismatch (cause : Mismatch)
deriving Repr, DecidableEq, Inhabited

namespace Fault

def message : Fault → String
  | malformed cause => cause.message
  | mismatch cause => cause.message

end Fault

/-- A fault of a text, found with the first `offset` bytes read. -/
structure TextFault where
  fault : Fault
  line : Nat
  column : Nat
deriving Repr, DecidableEq, Inhabited

namespace TextFault

/-- Line feeds among the first `offset` bytes, and the bytes after the last of them. -/
private def locate : List Char → Nat → Nat → Nat → Nat × Nat
  | [], offset, line, column => (line, column + offset)
  | c :: cs, offset, line, column =>
    if offset < c.utf8Size then (line, column + offset)
    else if c = '\n' then locate cs (offset - 1) (line + 1) 0
    else locate cs (offset - c.utf8Size) line (column + c.utf8Size)

def ofOffset (text : List Char) (fault : Fault) (offset : Nat) : TextFault :=
  let (line, column) := locate text offset 1 0
  ⟨fault, line, column⟩

def message (f : TextFault) : String :=
  f.fault.message ++ " at line " ++ toString f.line ++ " column " ++ toString f.column

end TextFault

end SideEffectLint.Json
