import SideEffectLint.Text.IdentifierRanges

/-!
Which characters a name is made of.
-/

namespace SideEffectLint.Text

private def inRanges (ranges : List (Nat × Nat)) (c : Char) : Bool :=
  ranges.any fun r => r.1 ≤ c.toNat && c.toNat ≤ r.2

/-- A letter, `$` or `_`. -/
def isNameStart (c : Char) : Bool :=
  if c.toNat < 0x80 then c.isAlpha || c = '$' || c = '_' else inRanges startRanges c

/-- What may start a name, a digit, a mark, or one of the two zero-width joiners. -/
def isNamePart (c : Char) : Bool :=
  if c.toNat < 0x80 then c.isAlphanum || c = '$' || c = '_'
  else c = '\u200c' || c = '\u200d' || inRanges startRanges c || inRanges markRanges c

end SideEffectLint.Text
