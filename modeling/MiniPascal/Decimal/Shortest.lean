import MiniPascal.Decimal.Binary

/-! # The shortest decimal that reads back

A double is one point of a grid, and every real nearer to it than to its neighbours reads back as
it. Among the decimals in that interval those with the fewest digits are the shortest, and of two
such the nearer is taken (on an exact tie the one with the even last digit). For each number of
digits only the two decimals next to the value have to be tried.
-/

namespace MiniPascal

/-- A positive decimal: `digits * 10 ^ exponent`. -/
structure Decimal where
  digits : Nat
  exponent : Int
deriving DecidableEq

/-- A positive double and the interval of reals that read back as it, all in units of
`1 / scale`. -/
structure Rounding where
  value : Nat
  low : Nat
  high : Nat
  scale : Nat
  /-- Whether the ends of the interval read back too. -/
  closed : Bool

/-- The interval around the magnitude of a double. -/
def Rounding.of (parts : BinaryParts) : Rounding :=
  let up := Nat.pow 2 (parts.exponent - 2).toNat
  { value := 4 * parts.significand * up
    low := (4 * parts.significand - if parts.closeBelow then 1 else 2) * up
    high := (4 * parts.significand + 2) * up
    scale := Nat.pow 2 (2 - parts.exponent).toNat
    closed := parts.significand % 2 == 0 }

/-- The largest `p` with `10 ^ p ≤ value / scale`, searched upward from a value below one. -/
def Rounding.magnitudeBelowOne (r : Rounding) : (fuel : Nat) → (p : Nat) → Int
  | 0, p => -p
  | fuel + 1, p => if r.scale ≤ r.value * Nat.pow 10 p then -p else r.magnitudeBelowOne fuel (p + 1)

/-- The largest `p` with `10 ^ p ≤ value / scale`. -/
def Rounding.magnitude (r : Rounding) : Int :=
  if r.scale ≤ r.value then (Nat.toDigits 10 (r.value / r.scale)).length - 1
  else r.magnitudeBelowOne 400 1

/-- Tries the two decimals with exponent `k` next to the value. -/
def Rounding.onGrid? (r : Rounding) (k : Int) : Option Decimal :=
  let unit := r.scale * Nat.pow 10 k.toNat
  let zoom := Nat.pow 10 (-k).toNat
  let below := r.value * zoom / unit
  let above := below + 1
  let fitsBelow :=
    if r.closed then r.low * zoom ≤ below * unit else r.low * zoom < below * unit
  let fitsAbove :=
    if r.closed then above * unit ≤ r.high * zoom else above * unit < r.high * zoom
  let toBelow := r.value * zoom - below * unit
  let toAbove := above * unit - r.value * zoom
  if fitsBelow ∧ fitsAbove then
    if toBelow < toAbove ∨ (toBelow = toAbove ∧ below % 2 = 0) then some ⟨below, k⟩
    else some ⟨above, k⟩
  else if fitsBelow then some ⟨below, k⟩
  else if fitsAbove then some ⟨above, k⟩
  else none

/-- The first grid with a decimal in the interval, from coarse to fine. -/
def Rounding.firstGrid (r : Rounding) : (fuel : Nat) → (k : Int) → Decimal
  | 0, k => ⟨r.value * Nat.pow 10 (-k).toNat / (r.scale * Nat.pow 10 k.toNat), k⟩
  | fuel + 1, k => (r.onGrid? k).getD (r.firstGrid fuel (k - 1))

/-- Moves trailing zeros of the digits into the exponent. -/
def Decimal.strip : (fuel : Nat) → Decimal → Decimal
  | 0, d => d
  | fuel + 1, d => if d.digits ≠ 0 ∧ d.digits % 10 = 0 then strip fuel ⟨d.digits / 10, d.exponent + 1⟩ else d

/-- The shortest decimal that reads back as a positive double. -/
def Decimal.shortest (parts : BinaryParts) : Decimal :=
  let r := Rounding.of parts
  (r.firstGrid 18 r.magnitude).strip 20

end MiniPascal
