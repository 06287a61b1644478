/-!
How alike two words are: the Jaro similarity. Letters match if they are equal and stand near the
same place; matching letters in another order count half.
-/

namespace SideEffectLint.CommandLine

/-- Marks the first free occurrence of a letter from place `low` up to, and without, `high`. -/
private def markFirst (letter : Char) (low high : Nat) :
    Nat → List (Char × Bool) → Option (List (Char × Bool))
  | _, [] => none
  | place, (c, taken) :: cs =>
    if low ≤ place ∧ place < high ∧ c = letter ∧ !taken then some ((c, true) :: cs)
    else (markFirst letter low high (place + 1) cs).map ((c, taken) :: ·)

/-- The letters of a word that match, and the other word with the letters marked that they match. -/
private def matching (range : Nat) :
    Nat → List Char → List (Char × Bool) → List Char × List (Char × Bool)
  | _, [], other => ([], other)
  | place, c :: cs, other =>
    match markFirst c (place - range) (place + range + 1) 0 other with
    | some other =>
      let (found, other) := matching range (place + 1) cs other
      (c :: found, other)
    | none => matching range (place + 1) cs other

/-- From 0 for words without a common letter to 1 for equal words. -/
def similarity (a b : String) : Float :=
  if a = "" && b = "" then 1
  else
    let range := max a.length b.length / 2 - 1
    let (found, other) := matching range 0 a.toList (b.toList.map (·, false))
    let others := (other.filter Prod.snd).map Prod.fst
    let moved := ((found.zip others).filter fun p => p.1 != p.2).length / 2
    let count := found.length
    if count = 0 then 0
    else
      let part (n : Nat) (of : Nat) : Float := Float.ofNat n / Float.ofNat of
      (part count a.length + part count b.length + part (count - moved) count) / 3

/-- The words that may have been meant, the likeliest last. -/
def similarWords (word : String) (known : List String) : List String :=
  let scored := known.map fun k => (similarity word k, k)
  ((scored.filter (·.1 > 0.7)).mergeSort (·.1 ≤ ·.1)).map Prod.snd

end SideEffectLint.CommandLine
