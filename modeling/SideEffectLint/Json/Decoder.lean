import SideEffectLint.Json.Skip

/-!
Decoders: what a value has to be like to stand for something. A decoder reads from a text, which it
may refuse before it has read it to its end, or is applied to a value.
-/

namespace SideEffectLint.Json

namespace Reader

variable {α σ : Type}

/-- The items of a list up to its closing bracket, from the first one or from one further on. -/
def itemsFrom (first : Bool) (item : Reader α) : Reader (List α) :=
  repeating [] fun acc => do
    if ← hasItem (first && acc.isEmpty) then return .inl ((← item) :: acc)
    else return .inr acc.reverse

def items (item : Reader α) : Reader (List α) :=
  itemsFrom true item

/-- Folds the members of an object; the step starts behind the key. -/
def foldMembers (init : σ) (step : σ → String → Reader σ) : Reader σ :=
  repeating (true, init) fun (first, acc) => do
    if ← hasMember first then return .inl (false, ← step acc (← string)) else return .inr acc

def member (value : Reader Value) (acc : List Member) (key : String) :
    Reader (List Member) := do
  colon
  return .mk key (← value) :: acc

def valueAround (inner : Reader Value) : Reader Value := do
  match ← peekValue with
  | '[' => return .array (← enclosed closeList (items inner))
  | '\x7b' => return .object (← enclosed closeObject (foldMembers [] (member inner))).reverse
  | first => return .scalar (← scalar first)

def valueWithin : Nat → Reader Value
  | 0 => valueAround (malformed .tooDeep)
  | depth + 1 => valueAround (valueWithin depth)

/-- Any value. -/
def value : Reader Value :=
  fun depth c => valueWithin depth depth c

end Reader

structure Decoder (α : Type) where
  read : Reader α
  ofValue : Value → Except Mismatch α

namespace Decoder

variable {α β : Type}

def map (f : α → β) (d : Decoder α) : Decoder β where
  read := do return f (← d.read)
  ofValue v := (d.ofValue v).map f

/-- Reads a value that opens with the bracket `bracket` by `r`, and refuses any other. -/
def readEnclosed (wanted : String) (list object : Option (Reader α)) : Reader α := do
  match ← Reader.peekValue, list, object with
  | '[', some r, _ => Reader.enclosed Reader.closeList r
  | '[', none, _ => Reader.placed (Reader.refuse (.wrongType .sequence wanted))
  | '\x7b', _, some r => Reader.enclosed Reader.closeObject r
  | '\x7b', _, none => Reader.placed (Reader.refuse (.wrongType .map wanted))
  | first, _, _ => Reader.placed do
    Reader.refuse (.wrongType (.scalar (← Reader.scalar first)) wanted)

/-- A scalar of which `accept` makes something. -/
def ofScalar (wanted : String) (accept : Scalar → Except Mismatch α) : Decoder α where
  read := do
    match ← Reader.peekValue with
    | '[' => Reader.placed (Reader.refuse (.wrongType .sequence wanted))
    | '\x7b' => Reader.placed (Reader.refuse (.wrongType .map wanted))
    | first => Reader.placed do Reader.ofExcept (accept (← Reader.scalar first))
  ofValue
    | .scalar s => accept s
    | v => .error (.wrongType (.ofValue v) wanted)

def bool : Decoder Bool :=
  ofScalar "a boolean" fun
    | .bool b => .ok b
    | s => .error (.wrongType (.scalar s) "a boolean")

def text (wanted : String) : Decoder String :=
  ofScalar wanted fun
    | .string s => .ok s
    | s => .error (.wrongType (.scalar s) wanted)

def string : Decoder String :=
  text "a string"

/-- A natural number of 32 bits. -/
def word32 : Decoder Nat :=
  ofScalar "u32" fun
    | .number (.whole n) =>
      if 0 ≤ n ∧ n.toNat < UInt32.size then .ok n.toNat
      else .error (.wrongValue (.scalar (.number (.whole n))) "u32")
    | s => .error (.wrongType (.scalar s) "u32")

def unit : Decoder Unit :=
  ofScalar "unit" fun
    | .null => .ok ()
    | s => .error (.wrongType (.scalar s) "unit")

/-- A value, or null. -/
def optional (d : Decoder α) : Decoder (Option α) where
  read := do
    match ← Reader.peek with
    | some 'n' => do
      Reader.word ['n', 'u', 'l', 'l']
      pure none
    | _ => return some (← d.read)
  ofValue
    | .scalar .null => .ok none
    | v => (d.ofValue v).map some

def list (d : Decoder α) : Decoder (List α) where
  read := readEnclosed "a sequence" (some (Reader.items d.read)) none
  ofValue
    | .array items => items.mapM d.ofValue
    | v => .error (.wrongType (.ofValue v) "a sequence")

def lookUp (choices : List (String × α)) (name : String) : Except Mismatch α :=
  match choices.find? (·.1 = name) with
  | some (_, value) => .ok value
  | none => .error (.unknownVariant name (choices.map Prod.fst))

/-- The name of a choice. -/
def choiceName (choices : List (String × α)) : Decoder α :=
  ofScalar "variant identifier" fun
    | .string name => lookUp choices name
    | s => .error (.wrongType (.scalar s) "variant identifier")

/-- The name of a choice, or an object with it as the key of a null. -/
def choice (choices : List (String × α)) : Decoder α where
  read := do
    match ← Reader.peekValue with
    | '"' => (choiceName choices).read
    | '\x7b' => Reader.opened do
      let value ← (choiceName choices).read
      Reader.colon
      unit.read
      match ← Reader.peek with
      | some '\x7d' => do
        Reader.advance 1
        pure value
      | some _ => fun _ c => .failed (.malformed .valueExpected) c.offset
      | none => Reader.malformed .endInObject
    | _ => Reader.malformed .valueExpected
  ofValue
    | .scalar (.string name) => lookUp choices name
    | .object [.mk name v] => do
      let value ← lookUp choices name
      unit.ofValue v
      pure value
    | .object _ => .error (.wrongValue .map "map with a single key")
    | v => .error (.wrongType (.ofValue v) "string or map")

end Decoder

/-- A field of a record that is built by setting one field after the other. -/
structure RecordField (α : Type) where
  name : String
  required : Bool
  decoder : Decoder (α → α)

/-- Records are objects, or lists of their fields in order. A field that is not required keeps the
value that it has in `blank`. -/
structure Record (α : Type) where
  title : String
  blank : α
  fields : List (RecordField α)
  /-- No other fields are allowed. -/
  closed : Bool

namespace Record

variable {α : Type}

def size (r : Record α) : String :=
  let n := r.fields.length
  r.title ++ " with " ++ toString n ++ (if n = 1 then " element" else " elements")

def names (r : Record α) : List String :=
  r.fields.map RecordField.name

/-- What has been set so far, and the names of the fields that were. -/
structure Draft (α : Type) where
  value : α
  seen : List String

def finish (r : Record α) (d : Draft α) : Except Mismatch α :=
  match r.fields.find? fun f => f.required && !d.seen.contains f.name with
  | some f => .error (.missingField f.name)
  | none => .ok d.value

/-- The field that a key sets. It sets it once. -/
def field? (r : Record α) (d : Draft α) (key : String) :
    Except Mismatch (Option (RecordField α)) :=
  match r.fields.find? (·.name = key) with
  | some f => if d.seen.contains key then .error (.duplicateField key) else .ok (some f)
  | none => if r.closed then .error (.unknownField key r.names) else .ok none

def set (d : Draft α) (f : RecordField α) (change : α → α) : Draft α :=
  ⟨change d.value, f.name :: d.seen⟩

def readMember (r : Record α) (d : Draft α) (key : String) : Reader (Draft α) := do
  match ← Reader.ofExcept (r.field? d key) with
  | some f => do
    Reader.colon
    return set d f (← f.decoder.read)
  | none => do
    Reader.colon
    Reader.skip
    pure d

def readMembers (r : Record α) : Reader α := do
  Reader.ofExcept (r.finish (← Reader.foldMembers ⟨r.blank, []⟩ r.readMember))

def readItems (r : Record α) : List (RecordField α) → Nat → α → Reader α
  | [], _, value => pure value
  | f :: fs, count, value => do
    if ← Reader.hasItem (count = 0) then
      let change ← f.decoder.read
      r.readItems fs (count + 1) (change value)
    else if f.required then Reader.refuse (.tooShort count r.size)
    else r.readItems fs (count + 1) value

def ofMembers (r : Record α) : List Member → Draft α → Except Mismatch α
  | [], d => r.finish d
  | .mk key v :: ms, d => do
    match ← r.field? d key with
    | some f => r.ofMembers ms (set d f (← f.decoder.ofValue v))
    | none => r.ofMembers ms d

def ofItems (r : Record α) :
    List (RecordField α) → List Value → Nat → α → Except Mismatch α
  | [], [], _, value => .ok value
  | [], rest, count, _ => .error (.tooLong (count + rest.length) count)
  | f :: fs, [], count, value =>
    if f.required then .error (.tooShort count r.size) else r.ofItems fs [] (count + 1) value
  | f :: fs, v :: vs, count, value => do
    let change ← f.decoder.ofValue v
    r.ofItems fs vs (count + 1) (change value)

def ofValue (r : Record α) : Value → Except Mismatch α
  | .array items => r.ofItems r.fields items 0 r.blank
  | .object members => r.ofMembers members ⟨r.blank, []⟩
  | v => .error (.wrongType (.ofValue v) r.title)

def decoder (r : Record α) : Decoder α where
  read := Decoder.readEnclosed r.title (some (r.readItems r.fields 0 r.blank)) (some r.readMembers)
  ofValue := r.ofValue

end Record

/-- Objects with a member that names the kind of record which the others make up, or lists that
start with that name. What else they hold is a value for the decoder of the kind. -/
structure Tagged (α : Type) where
  title : String
  tag : String
  variants : List (String × Decoder α)

namespace Tagged

variable {α : Type}

def variant (t : Tagged α) : Decoder (Decoder α) :=
  Decoder.choiceName t.variants

def finish (t : Tagged α) : Option (Decoder α) × List Member →
    Except Mismatch (Decoder α × Value)
  | (none, _) => .error (.missingField t.tag)
  | (some d, members) => .ok (d, .object members.reverse)

def readMember (t : Tagged α) (acc : Option (Decoder α) × List Member) (key : String) :
    Reader (Option (Decoder α) × List Member) := do
  if key = t.tag then
    if acc.1.isSome then Reader.refuse (.duplicateField key)
    else
      Reader.colon
      return (some (← t.variant.read), acc.2)
  else
    Reader.colon
    return (acc.1, .mk key (← Reader.value) :: acc.2)

def readMembers (t : Tagged α) : Reader (Decoder α × Value) := do
  Reader.ofExcept (t.finish (← Reader.foldMembers (none, []) t.readMember))

def readItems (t : Tagged α) : Reader (Decoder α × Value) := do
  if ← Reader.hasItem true then
    let d ← t.variant.read
    return (d, .array (← Reader.itemsFrom false Reader.value))
  else Reader.refuse (.missingField t.tag)

def splitMembers (t : Tagged α) :
    List Member → Option (Decoder α) × List Member → Except Mismatch (Decoder α × Value)
  | [], acc => t.finish acc
  | .mk key v :: ms, acc => do
    if key = t.tag then
      if acc.1.isSome then .error (.duplicateField key)
      else t.splitMembers ms (some (← t.variant.ofValue v), acc.2)
    else t.splitMembers ms (acc.1, .mk key v :: acc.2)

def splitValue (t : Tagged α) : Value → Except Mismatch (Decoder α × Value)
  | .array [] => .error (.missingField t.tag)
  | .array (v :: vs) => do return (← t.variant.ofValue v, .array vs)
  | .object members => t.splitMembers members (none, [])
  | v => .error (.wrongType (.ofValue v) t.title)

/-- The text is read up to the end of the value before its parts are looked at. -/
def decoder (t : Tagged α) : Decoder α where
  read := do
    let (d, v) ← Decoder.readEnclosed t.title (some t.readItems) (some t.readMembers)
    Reader.ofExcept (d.ofValue v)
  ofValue v := do
    let (d, v) ← t.splitValue v
    d.ofValue v

end Tagged

namespace Decoder

/-- Brackets may be opened this deep. -/
def maxDepth : Nat :=
  127

variable {α : Type}

def readText (d : Decoder α) : Reader α := do
  let value ← Reader.placed d.read
  match ← Reader.peek with
  | none => pure value
  | some _ => Reader.malformed .trailingText

def decode (d : Decoder α) (text : String) : Except TextFault α :=
  let chars := text.toList
  match d.readText maxDepth ⟨chars, 0⟩ with
  | .done value _ => .ok value
  | .failed fault offset => .error (.ofOffset chars fault offset)
  | .refused cause c => .error (.ofOffset chars (.mismatch cause) c.offset)

/-- Values as they are. -/
def anything : Decoder Value where
  read := Reader.value
  ofValue := .ok

end Decoder

end SideEffectLint.Json
