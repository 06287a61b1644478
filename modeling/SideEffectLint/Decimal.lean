/-!
Decimals that name binary fractions by the fewest digits, and their text.
-/

namespace SideEffectLint

/-- The number `digits * 10 ^ exponent`, below zero if `negative`; zero has a sign too. -/
structure Decimal where
  negative : Bool
  digits : Nat
  exponent : Int
deriving Repr, DecidableEq, Inhabited

namespace Decimal

/-- The positive number `significand * 2 ^ exponent` of a format, whose lower neighbour is half as
far away as the upper one if `isPower`. -/
private structure Binary where
  significand : Nat
  exponent : Int
  isPower : Bool

private def Binary.ofBits (bits : Nat) : Binary :=
  let unit := Nat.pow 2 52
  let fraction := bits % unit
  let biased : Nat := bits / unit % Nat.pow 2 11
  if biased = 0 then ⟨fraction, -1074, false⟩
  else ⟨unit + fraction, (biased : Int) - 1075, fraction = 0 && 1 < biased⟩

/-- Numerator and denominator of `n * 2 ^ two / 10 ^ ten`. -/
private def scaled (n : Nat) (two ten : Int) : Nat × Nat :=
  (n * Nat.pow 2 two.toNat * Nat.pow 10 (-ten).toNat,
    Nat.pow 2 (-two).toNat * Nat.pow 10 ten.toNat)

/-- The multiple of `10 ^ grid` that reads back as `b` and is nearest to it, the even one of two. -/
private def Binary.onGrid (b : Binary) (grid : Int) : Option Nat :=
  let (n, d) := scaled (4 * b.significand) (b.exponent - 2) grid
  let (low, _) := scaled (4 * b.significand - if b.isPower then 1 else 2) (b.exponent - 2) grid
  let (high, _) := scaled (4 * b.significand + 2) (b.exponent - 2) grid
  let within (k : Nat) : Bool :=
    if b.significand % 2 = 0 then low ≤ k * d && k * d ≤ high else low < k * d && k * d < high
  let below := n / d
  let rest := n % d
  let nearer :=
    if 2 * rest < d then below
    else if d < 2 * rest then below + 1
    else below + below % 2
  let other := below + (below + 1) - nearer
  if within nearer then some nearer else if within other then some other else none

/-- Tries grids from coarse to fine. -/
private def Binary.shortest (b : Binary) : Nat → Int → Nat × Int
  | 0, grid => (0, grid)
  | fuel + 1, grid =>
    match b.onGrid grid with
    | some (k + 1) => (k + 1, grid)
    | _ => b.shortest fuel (grid - 1)

/-- The decimal with the fewest digits that reads back as a finite `x`, and of these the nearest. -/
def ofFloat (x : Float) : Decimal :=
  let bits := x.toBits.toNat
  let signBit := Nat.pow 2 63
  let negative := signBit ≤ bits
  let magnitude := bits % signBit
  if magnitude = 0 then ⟨negative, 0, 0⟩
  else
    let (digits, exponent) := (Binary.ofBits magnitude).shortest 640 310
    ⟨negative, digits, exponent⟩

private def zeros (n : Nat) : String :=
  String.ofList (List.replicate n '0')

/-- Numbers with a leading digit from `10 ^ -5` to `10 ^ 15` have a point, others an exponent. -/
def text (d : Decimal) : String :=
  let digits := toString d.digits
  let count := digits.length
  let leading := d.exponent + count - 1
  let sign := if d.negative then "-" else ""
  if d.digits = 0 then sign ++ "0.0"
  else if -5 ≤ leading ∧ leading ≤ 15 then
    if 0 ≤ d.exponent then sign ++ digits ++ zeros d.exponent.toNat ++ ".0"
    else if 0 ≤ leading then
      let whole := leading.toNat + 1
      sign ++ String.ofList (digits.toList.take whole) ++ "." ++
        String.ofList (digits.toList.drop whole)
    else sign ++ "0." ++ zeros (-leading - 1).toNat ++ digits
  else
    let fraction := String.ofList (digits.toList.drop 1)
    sign ++ String.ofList (digits.toList.take 1) ++
      (if fraction = "" then "" else "." ++ fraction) ++ "e" ++
        (if leading < 0 then "-" else "+") ++ toString leading.natAbs

end Decimal

end SideEffectLint
