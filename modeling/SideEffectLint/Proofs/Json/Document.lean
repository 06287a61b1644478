import SideEffectLint.Json.Literal

/-! The grammar of JSON texts, as trees of what is written: blanks, escapes and repeated keys included.
What a tree means is a value, unless a number is out of range, one half of a surrogate pair stands alone
or brackets open too deep. -/

namespace SideEffectLint.Json

/-- Blanks between the parts of a text. -/
structure Blanks where
  chars : List Char
  blank : ∀ c ∈ chars, Reader.isBlank c

/-- One digit or more. -/
structure Digits where
  chars : List Char
  digit : ∀ c ∈ chars, c.isDigit
  ne_nil : chars ≠ []

theorem Digits.exists_cons (ds : Digits) : ∃ d ds', ds.chars = d :: ds' ∧ d.isDigit := by
  obtain ⟨d, ds', hds⟩ := List.exists_cons_of_ne_nil ds.ne_nil
  exact ⟨d, ds', hds, ds.digit d (hds ▸ List.mem_cons_self)⟩

structure ExponentForm where
  /-- It starts with a capital letter. -/
  capital : Bool
  /-- Its sign, if it has one, is a minus. -/
  sign : Option Bool
  digits : Digits

structure NumberForm where
  negative : Bool
  whole : Digits
  /-- The first digit is zero only if it stands alone. -/
  zero_alone : whole.chars.head? = some '0' → whole.chars = ['0']
  fraction : Option Digits
  exponent : Option ExponentForm

/-- One character of a string, or half of one, as it is written. -/
inductive StringPart where
  | plain (c : Char) (quote : c ≠ '"') (backslash : c ≠ '\\') (control : ¬ c < ' ')
  | escape (mark c : Char) (h : Reader.escaped mark = some c)
  | code (a b c d : Char) (n : Nat) (h : Reader.hexOf a b c d = some n)

inductive ScalarForm where
  | null
  | bool (value : Bool)
  | number (n : NumberForm)
  | string (parts : List StringPart)

mutual

/-- A value without the blanks around it. The blanks at the start of a list or an object stand in front
of those of its first entry. -/
inductive Form where
  | scalar (s : ScalarForm)
  | array (inside : Blanks) (items : List ElementForm)
  | object (inside : Blanks) (members : List PropertyForm)

/-- A value with the blanks around it, as which it is a whole text. -/
inductive ElementForm where
  | mk (before : Blanks) (form : Form) (after : Blanks)

inductive PropertyForm where
  | mk (before : Blanks) (key : List StringPart) (between : Blanks) (value : ElementForm)

end

namespace ExponentForm

def signChars (e : ExponentForm) : List Char :=
  match e.sign with
  | none => []
  | some false => ['+']
  | some true => ['-']

def below (e : ExponentForm) : Bool :=
  e.sign.getD false

def chars (e : ExponentForm) : List Char :=
  (if e.capital then 'E' else 'e') :: e.signChars ++ e.digits.chars

end ExponentForm

namespace NumberForm

def fractionChars : Option Digits → List Char
  | none => []
  | some ds => '.' :: ds.chars

def exponentChars : Option ExponentForm → List Char
  | none => []
  | some e => e.chars

def chars (n : NumberForm) : List Char :=
  (if n.negative then ['-'] else []) ++ n.whole.chars ++ fractionChars n.fraction ++
    exponentChars n.exponent

end NumberForm

namespace StringPart

def chars : StringPart → List Char
  | plain c .. => [c]
  | escape mark .. => ['\\', mark]
  | code a b c d .. => ['\\', 'u', a, b, c, d]

def quoted (parts : List StringPart) : List Char :=
  '"' :: parts.flatMap chars ++ ['"']

end StringPart

def ScalarForm.chars : ScalarForm → List Char
  | null => ['n', 'u', 'l', 'l']
  | bool true => ['t', 'r', 'u', 'e']
  | bool false => ['f', 'a', 'l', 's', 'e']
  | number n => n.chars
  | string parts => StringPart.quoted parts

mutual

def Form.chars : Form → List Char
  | .scalar s => s.chars
  | .array inside items => '[' :: inside.chars ++ itemsChars true items ++ [']']
  | .object inside members => '\x7b' :: inside.chars ++ membersChars true members ++ ['\x7d']

def ElementForm.chars : ElementForm → List Char
  | .mk before form after => before.chars ++ form.chars ++ after.chars

def PropertyForm.chars : PropertyForm → List Char
  | .mk before key between value =>
    before.chars ++ StringPart.quoted key ++ between.chars ++ ':' :: value.chars

/-- Items with a comma in front of those that are not the first. -/
def itemsChars : Bool → List ElementForm → List Char
  | _, [] => []
  | first, e :: es => (if first then [] else [',']) ++ e.chars ++ itemsChars false es

/-- Members with a comma in front of those that are not the first. -/
def membersChars : Bool → List PropertyForm → List Char
  | _, [] => []
  | first, p :: ps => (if first then [] else [',']) ++ p.chars ++ membersChars false ps

end

namespace ElementForm

def form : ElementForm → Form
  | mk _ form _ => form

/-- What stands in front of the blanks at the end. -/
def lead : ElementForm → List Char
  | mk before form _ => before.chars ++ form.chars

def trail : ElementForm → Blanks
  | mk _ _ after => after

def text (e : ElementForm) : String :=
  String.ofList e.chars

private theorem chars_eq (e : ElementForm) : e.chars = e.lead ++ e.trail.chars := by
  obtain ⟨before, form, after⟩ := e
  rw [chars, lead, trail]

end ElementForm

namespace PropertyForm

def value : PropertyForm → ElementForm
  | mk _ _ _ value => value

/-- What stands between the key and the blanks at the end. -/
def behindKey : PropertyForm → List Char
  | mk _ _ between value => between.chars ++ ':' :: value.lead

/-- What stands in front of the blanks at the end. -/
def lead (p : PropertyForm) : List Char :=
  match p with
  | mk before key _ _ => before.chars ++ StringPart.quoted key ++ p.behindKey

def trail (p : PropertyForm) : Blanks :=
  p.value.trail

private theorem chars_eq (p : PropertyForm) : p.chars = p.lead ++ p.trail.chars := by
  obtain ⟨before, key, between, value⟩ := p
  rw [chars, lead, behindKey, value.chars_eq]
  simp only [List.append_assoc, List.cons_append]
  rfl

end PropertyForm

/-- Entries, each with the blanks behind it, with a comma in front of those that are not the first. -/
def listed {ι : Type} (lead : ι → List Char) (trail : ι → Blanks) : Bool → List ι → List Char
  | _, [] => []
  | first, i :: is =>
    (if first then [] else [',']) ++ lead i ++ (trail i).chars ++ listed lead trail false is

theorem itemsChars_eq (first : Bool) (es : List ElementForm) :
    itemsChars first es = listed ElementForm.lead ElementForm.trail first es := by
  induction es generalizing first with
  | nil => rw [itemsChars, listed]
  | cons e es ih => rw [itemsChars, listed, e.chars_eq, ih, List.append_assoc _ e.lead]

theorem membersChars_eq (first : Bool) (ps : List PropertyForm) :
    membersChars first ps = listed PropertyForm.lead PropertyForm.trail first ps := by
  induction ps generalizing first with
  | nil => rw [membersChars, listed]
  | cons p ps ih => rw [membersChars, listed, p.chars_eq, ih, List.append_assoc _ p.lead]

/-- The number `value * 10 ^ shift` with the exponent, unless it is out of range. -/
def ExponentForm.number? (e : ExponentForm) (negative : Bool) (value : Nat) (shift : Int) :
    Option Number :=
  match Reader.bounded e.digits.chars 0 0 with
  | .inl n => Reader.fraction negative value (shift + if e.below then -(n : Int) else n)
  | .inr _ => if value ≠ 0 ∧ !e.below then none else Reader.fraction negative 0 0

/-- The number `value * 10 ^ shift` with the exponent if there is one. -/
def ExponentForm.scaled? (e? : Option ExponentForm) (negative : Bool) (value : Nat) (shift : Int) :
    Option Number :=
  match e? with
  | none => Reader.fraction negative value shift
  | some e => e.number? negative value shift

/-- The number, unless it is out of range. -/
def NumberForm.number? (n : NumberForm) : Option Number :=
  let (value, dropped) := Reader.keep n.whole.chars 0
  match n.fraction with
  | some ds =>
    let (value, left) := Reader.keep ds.chars value
    ExponentForm.scaled? n.exponent n.negative value (dropped - (ds.chars.length - left : Nat))
  | none =>
    if n.exponent.isNone ∧ dropped = 0 then some (Reader.whole n.negative value)
    else ExponentForm.scaled? n.exponent n.negative value dropped

namespace StringPart

/-- The characters of the parts that follow the first half of a surrogate pair, or none. -/
def charsAfter? : Option Nat → List StringPart → Option (List Char)
  | none, [] => some []
  | none, plain c .. :: ps => (charsAfter? none ps).map (c :: ·)
  | none, escape _ c _ :: ps => (charsAfter? none ps).map (c :: ·)
  | none, code _ _ _ _ n _ :: ps =>
    if 0xdc00 ≤ n && n < 0xe000 then none
    else if 0xd800 ≤ n && n < 0xdc00 then charsAfter? (some n) ps
    else (charsAfter? none ps).map (Char.ofNat n :: ·)
  | some high, code _ _ _ _ low _ :: ps =>
    if 0xdc00 ≤ low && low < 0xe000 then
      (charsAfter? none ps).map
        (Char.ofNat (0x10000 + (high - 0xd800) * 0x400 + (low - 0xdc00)) :: ·)
    else none
  | some _, _ => none

/-- The string that the parts make up, unless one half of a surrogate pair stands alone. -/
def text? (parts : List StringPart) : Option String :=
  (charsAfter? none parts).map String.ofList

end StringPart

def PropertyForm.key? : PropertyForm → Option String
  | .mk _ key _ _ => StringPart.text? key

def ScalarForm.scalar? : ScalarForm → Option Scalar
  | null => some .null
  | bool b => some (.bool b)
  | number n => n.number?.map .number
  | string parts => (StringPart.text? parts).map .string

mutual

/-- The value, if brackets that deep may be opened. -/
def Form.value? : Form → Nat → Option Value
  | .scalar s, _ => s.scalar?.map .scalar
  | .array _ _, 0 | .object _ _, 0 => none
  | .array _ items, depth + 1 => (itemsValue? items depth).map .array
  | .object _ members, depth + 1 => (membersValue? members depth).map .object

def ElementForm.value? : ElementForm → Nat → Option Value
  | .mk _ form _, depth => form.value? depth

def PropertyForm.member? : PropertyForm → Nat → Option Member
  | .mk _ key _ value, depth =>
    (StringPart.text? key).bind fun key => (value.value? depth).map (Member.mk key)

def itemsValue? : List ElementForm → Nat → Option (List Value)
  | [], _ => some []
  | e :: es, depth => do
    return (← e.value? depth) :: (← itemsValue? es depth)

def membersValue? : List PropertyForm → Nat → Option (List Member)
  | [], _ => some []
  | p :: ps, depth => do
    return (← p.member? depth) :: (← membersValue? ps depth)

end

end SideEffectLint.Json
