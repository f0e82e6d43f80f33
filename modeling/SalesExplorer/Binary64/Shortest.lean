import SalesExplorer.Binary64.Decimal

/-!
# The shortest decimal text of a number

The digits are the fewest that read back as the number, and of those the nearest to it. They are
found by search: on the grid of `n`-digit decimals only the two neighbours of the value can lie in
the interval of reals that round to it, so the first `n` with a hit wins.

The layout has at least one digit on either side of a point for `1e-5 ≤ |x| < 1e16` and for the
zeros, and `d.ddde±X` for all other numbers.
-/

namespace SalesExplorer.Binary64

attribute [local instance (high)] instPowNat

/-- The digits of a positive decimal `digits · 10 ^ scale`. -/
structure Decimal where
  digits : Nat
  scale : Int
  deriving DecidableEq

namespace Finite

/-- The ends of the interval that rounds to the number, in quarter units. -/
def interval (x : Finite) : Nat × Nat :=
  let below := if x.mantissa = 2 ^ (52 : Nat) ∧ x.exponent ≠ 0 then 1 else 2
  ((4 * x.mantissa - below) * 2 ^ x.exponent, (4 * x.mantissa + 2) * 2 ^ x.exponent)

/-- The decimal `c · 10 ^ k` rounds to the number. -/
def readsBack (x : Finite) (c : Nat) (k : Int) : Bool :=
  let (low, high) := x.interval
  let tenth := 10 ^ (-k).toNat
  let value := c * 10 ^ k.toNat * (4 * unitsPerOne)
  if x.mantissa % 2 = 0 then low * tenth ≤ value && value ≤ high * tenth
  else low * tenth < value && value < high * tenth

/-- The number of decimal digits before the point; for a value below one, minus the number of
zeros that follow the point. -/
def pointPosition (x : Finite) : Int :=
  let u := x.units
  if unitsPerOne ≤ u then (Nat.toDigits 10 (u / unitsPerOne)).length
  else 1 - ((Nat.toDigits 10 ((unitsPerOne - 1) / u)).length : Int)

/-- The decimal with `n` digits nearest to the number, if one of its neighbours reads back. -/
def withDigits? (x : Finite) (n : Nat) : Option Decimal :=
  let k : Int := x.pointPosition - n
  let num := x.units * 10 ^ (-k).toNat
  let den := unitsPerOne * 10 ^ k.toNat
  let c := num / den
  match x.readsBack c k, x.readsBack (c + 1) k with
  | true, true => some ⟨roundHalfEven num den, k⟩
  | true, false => some ⟨c, k⟩
  | false, true => some ⟨c + 1, k⟩
  | false, false => none

/-- The shortest decimal that reads back as the number. -/
def shortest (x : Finite) : Decimal :=
  ((List.range 17).findSome? fun n => x.withDigits? (n + 1)).getD ⟨x.units, -1074⟩

end Finite

/-! ## Layout -/

/-- The decimal without zeros at its end. -/
def Decimal.digitChars (d : Decimal) : List Char × Int :=
  let ds := Nat.toDigits 10 d.digits
  let zeros := (ds.reverse.takeWhile (· == '0')).length
  (ds.take (ds.length - zeros), d.scale + zeros)

/-- A positive decimal as text. -/
def Decimal.layout (d : Decimal) : List Char :=
  let (ds, k) := d.digitChars
  let point : Int := ds.length + k
  if -5 < point ∧ point ≤ 16 then
    if 0 ≤ k then ds ++ List.replicate k.toNat '0' ++ ['.', '0']
    else if 0 < point then ds.take point.toNat ++ '.' :: ds.drop point.toNat
    else ['0', '.'] ++ List.replicate (-point).toNat '0' ++ ds
  else
    let mantissa := match ds with
      | [] => []
      | [c] => [c]
      | c :: rest => c :: '.' :: rest
    let e := point - 1
    mantissa ++ ['e', if e < 0 then '-' else '+'] ++ Nat.toDigits 10 e.natAbs

/-- The shortest text of a finite number. -/
def Finite.text (x : Finite) : List Char :=
  (if x.negative then ['-'] else []) ++
    if x.isZero then ['0', '.', '0'] else x.shortest.layout

end SalesExplorer.Binary64
