/-!
# Decimal digits of numbers

`Decimal.ofFloat` finds the fewest decimal digits that read back as a given finite double, the
nearest of those where there are several, and `Decimal.text` writes them without an exponent.
-/

namespace ModuleGraph

/-- The number `digits · 10 ^ exponent`. -/
structure Decimal where
  digits : Nat
  exponent : Int
deriving DecidableEq, Repr

namespace Decimal

/-- A double `mantissa · 2 ^ exponent`. It is `narrow` where the gap to the double below is half the
gap to the double above. -/
structure Binary where
  mantissa : Nat
  exponent : Int
  narrow : Bool
deriving DecidableEq, Repr

/-- The magnitude of the finite double with given bits. -/
def Binary.ofBits (bits : UInt64) : Binary :=
  let fraction : Nat := bits.toNat % Nat.pow 2 52
  let biased : Nat := bits.toNat / Nat.pow 2 52 % Nat.pow 2 11
  if biased = 0 then ⟨fraction, -1074, false⟩
  else ⟨Nat.pow 2 52 + fraction, (biased : Int) - 1075, fraction = 0 && 1 < biased⟩

/-- A number `n · 2 ^ p · 10 ^ t` as a fraction of natural numbers, over a common denominator. -/
def scaled (n : Nat) (p t : Int) : Nat × Nat :=
  (n * Nat.pow 2 p.toNat * Nat.pow 10 t.toNat, Nat.pow 2 (-p).toNat * Nat.pow 10 (-t).toNat)

/-- Whether the decimal `d · 10 ^ e` reads back as `b`: it lies between the middles of the gaps to
the neighbours of `b`, or on one where the mantissa is even. -/
def readsBack (b : Binary) (d : Nat) (e : Int) : Bool :=
  let (low, lowUnit) := scaled (4 * b.mantissa - (if b.narrow then 1 else 2)) (b.exponent - 2) (-e)
  let (high, highUnit) := scaled (4 * b.mantissa + 2) (b.exponent - 2) (-e)
  if b.mantissa % 2 = 0 then low ≤ d * lowUnit && d * highUnit ≤ high
  else low < d * lowUnit && d * highUnit < high

/-- The digits at `10 ^ e` next to `b` that read back: the nearer of two, the larger of two that are
equally near. -/
def candidate? (b : Binary) (e : Int) : Option Decimal :=
  let (value, unit) := scaled b.mantissa b.exponent (-e)
  let below := value / unit
  let nearBelow := 2 * value < (2 * below + 1) * unit
  let pick (d : Nat) : Option Decimal := if readsBack b d e then some ⟨d, e⟩ else none
  if nearBelow then (pick below).or (pick (below + 1)) else (pick (below + 1)).or (pick below)

/-- The first candidate going down from `10 ^ e`. Seventeen digits always suffice, so that `steps`
need not exceed the number of places passed until then. -/
def search (b : Binary) : (steps : Nat) → (e : Int) → Decimal
  | 0, e => ⟨0, e⟩
  | n + 1, e => (candidate? b e).getD (search b n (e - 1))

/-- The shortest digits of the magnitude of a finite double. -/
def ofFloat (x : Float) : Decimal :=
  let b := Binary.ofBits x.toBits
  if b.mantissa = 0 then ⟨0, 0⟩
  else
    let places : Int := (Nat.toDigits 10 (scaled b.mantissa b.exponent 0).1).length
      - (Nat.toDigits 10 (scaled b.mantissa b.exponent 0).2).length
    search b 21 (places + 1)

/-- The decimal without an exponent. -/
def text (d : Decimal) : String :=
  let digits := Nat.toDigits 10 d.digits
  if 0 ≤ d.exponent then String.ofList (digits ++ List.replicate d.exponent.toNat '0')
  else
    let places := (-d.exponent).toNat
    let padded := List.replicate (places + 1 - digits.length) '0' ++ digits
    let whole := padded.take (padded.length - places)
    String.ofList (whole ++ '.' :: padded.drop (padded.length - places))

end Decimal

end ModuleGraph
