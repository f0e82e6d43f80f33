/-!
# Binary64 numbers

Numbers in the binary64 format, held exactly. A finite one is `± mantissa · 2 ^ exponent` in
units of `2 ^ -1074`, the least positive number of the format; the pair is kept in the only form
the format has for the value, so that equal numbers are equal terms (the two zeros apart).

`nearest` rounds a quotient of naturals to the format, a half going to the even mantissa. All of
it is arithmetic on `Nat`.
-/

namespace SalesExplorer

-- Powers of naturals are by the core instance, whatever else is imported. The exponents that are
-- literals have their type, without which a default instance would be taken.
attribute [local instance (high)] instPowNat

namespace Binary64

/-- A mantissa fills its 53 bits, unless the exponent is the least one. -/
def IsNormal (mantissa exponent : Nat) : Prop :=
  mantissa < 2 ^ (53 : Nat) ∧ exponent ≤ 2045 ∧ (exponent = 0 ∨ 2 ^ (52 : Nat) ≤ mantissa)

instance (m e : Nat) : Decidable (IsNormal m e) := by unfold IsNormal; infer_instance

/-- A finite number, `± mantissa · 2 ^ exponent` units of `2 ^ -1074`. -/
structure Finite where
  negative : Bool
  mantissa : Nat
  exponent : Nat
  normal : IsNormal mantissa exponent
  deriving DecidableEq

/-- The number of units `2 ^ -1074` in one. -/
def unitsPerOne : Nat := 2 ^ (1074 : Nat)

namespace Finite

def zero (negative : Bool) : Finite := ⟨negative, 0, 0, by decide⟩

instance : Inhabited Finite := ⟨zero false⟩

/-- The absolute value in units of `2 ^ -1074`. -/
def units (x : Finite) : Nat := x.mantissa * 2 ^ x.exponent

def isZero (x : Finite) : Bool := x.mantissa == 0

end Finite

end Binary64

/-- A binary64 number. -/
inductive Binary64 where
  | finite (x : Binary64.Finite)
  | infinite (negative : Bool)
  | nan
  deriving DecidableEq, Inhabited

/-! ## Rounding -/

/-- The integer nearest to `a / b`, a half going to the even neighbour. -/
def roundHalfEven (a b : Nat) : Nat :=
  let q := a / b
  let r := a % b
  if 2 * r < b then q
  else if b < 2 * r then q + 1
  else if q % 2 = 0 then q else q + 1

namespace Binary64

/-- The exponent at which a value of `u` whole units has a mantissa of at most 53 bits. -/
def exponentOf (u : Nat) : Nat := u.log2 + 1 - 53

/-- The number of the given parts, infinite where they are beyond the format. -/
def ofParts (negative : Bool) (mantissa exponent : Nat) : Binary64 :=
  if h : IsNormal mantissa exponent then .finite ⟨negative, mantissa, exponent, h⟩
  else .infinite negative

/-- The number of the format nearest to `± a / b`. A mantissa that is rounded up to 54 bits gives
way to the next exponent. -/
def nearest (negative : Bool) (a b : Nat) : Binary64 :=
  let scaled := a * unitsPerOne
  let e := exponentOf (scaled / b)
  let m := roundHalfEven scaled (b * 2 ^ e)
  if m = 2 ^ (53 : Nat) then ofParts negative (2 ^ (52 : Nat)) (e + 1) else ofParts negative m e

/-- The number of the format nearest to an integer. -/
def ofInt (n : Int) : Binary64 := nearest (decide (n < 0)) n.natAbs 1

def finite? : Binary64 → Option Finite
  | .finite x => some x
  | _ => none

end Binary64

end SalesExplorer
