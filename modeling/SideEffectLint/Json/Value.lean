import SideEffectLint.Decimal

/-!
JSON values. The members of an object keep their order and may repeat a key.
-/

namespace SideEffectLint.Json

/-- A number is whole if it is written without point and exponent and fits 64 bits with or without
a sign; any other is known as a binary fraction. -/
inductive Number where
  | whole (value : Int)
  | fraction (value : Decimal)
deriving Repr, DecidableEq, Inhabited

inductive Scalar where
  | null
  | bool (value : Bool)
  | number (value : Number)
  | string (value : String)
deriving Repr, DecidableEq, Inhabited

mutual

inductive Value where
  | scalar (value : Scalar)
  | array (items : List Value)
  | object (members : List Member)
deriving Repr, Inhabited

inductive Member where
  | mk (key : String) (value : Value)
deriving Repr, Inhabited

end

namespace Member

def key : Member → String
  | mk key _ => key

def value : Member → Value
  | mk _ value => value

end Member

namespace Value

def string (text : String) : Value :=
  .scalar (.string text)

def natural (n : Nat) : Value :=
  .scalar (.number (.whole n))

def bool (b : Bool) : Value :=
  .scalar (.bool b)

/-- Puts a member into its place among members in the order of their keys. -/
def insertMember (m : Member) : List Member → List Member
  | [] => [m]
  | n :: ns =>
    if m.key < n.key then m :: n :: ns
    else if m.key = n.key then m :: ns
    else n :: insertMember m ns

mutual

/-- The value in which each object has its keys in order, each with the value given last. -/
def canonical : Value → Value
  | .scalar s => .scalar s
  | .array items => .array (canonicalItems items)
  | .object members => .object (canonicalMembers members [])

def canonicalItems : List Value → List Value
  | [] => []
  | v :: vs => v.canonical :: canonicalItems vs

def canonicalMembers : List Member → List Member → List Member
  | [], acc => acc
  | .mk key v :: ms, acc => canonicalMembers ms (insertMember (.mk key v.canonical) acc)

end

/-- The value of a member of an object. -/
def member? (key : String) : Value → Option Value
  | .object members => (members.find? (·.key = key)).map Member.value
  | _ => none

end Value

end SideEffectLint.Json
