/-!
Places in a source text. Offsets count UTF-8 bytes and start at 1.
-/

namespace SideEffectLint

/-- The bytes from `start` up to, and without, `stop`. -/
structure Span where
  start : Nat
  stop : Nat
deriving Repr, DecidableEq, Inhabited

/-- Where the lines of a text begin. -/
structure LineMap where
  /-- Offsets at which a line after the first one starts, in increasing order. -/
  starts : List Nat
deriving Repr, DecidableEq, Inhabited

namespace LineMap

/-- Line starts of `cs`, whose first character stands at `offset`. A line ends at a line feed, a
carriage return, or the pair of them. -/
def startsFrom : List Char → Nat → List Nat
  | [], _ => []
  | '\r' :: '\n' :: cs, offset => (offset + 2) :: startsFrom cs (offset + 2)
  | c :: cs, offset =>
    let next := offset + c.utf8Size
    if c = '\n' ∨ c = '\r' then next :: startsFrom cs next else startsFrom cs next

def ofText (text : List Char) : LineMap :=
  ⟨startsFrom text 1⟩

/-- The line, counted from 1, that holds an offset. -/
def line (map : LineMap) (offset : Nat) : Nat :=
  1 + (map.starts.takeWhile (· ≤ offset)).length

end LineMap

end SideEffectLint
