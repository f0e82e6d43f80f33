import SalesExplorer.Binary64.Basic
import SalesExplorer.Text.Digits

/-!
# Figures

How numbers are shown to the user, in the Brazilian convention: a dot between groups of three
digits and a comma before the decimals. A figure is the exact value rounded to its number of
places, a half going to the even neighbour; the sign is left out where only zeros remain.

A *number* has at most three decimals and none of them a zero at the end. A *currency* amount is in
reais with two.
-/

namespace SalesExplorer.Figure

open Binary64

attribute [local instance (high)] instPowNat

/-! ## Digits -/

/-- The digits with a dot before every group of three, counted from the right. -/
def group : List Char → List Char
  | [] => []
  | c :: rest =>
    if rest.length % 3 = 0 ∧ rest ≠ [] then c :: '.' :: group rest else c :: group rest

/-- A natural number of `10 ^ -places`, grouped, with its decimals. -/
def magnitude (places n : Nat) : List Char :=
  let whole := group (Nat.toDigits 10 (n / 10 ^ places))
  if places = 0 then whole else whole ++ ',' :: padded places (n % 10 ^ places)

/-! ## Figures -/

/-- The absolute value in units of `10 ^ -places`, rounded to the nearest. -/
def rounded (x : Finite) (places : Nat) : Nat :=
  roundHalfEven (x.units * 10 ^ places) unitsPerOne

/-- A number with exactly the given number of places. -/
def decimal (x : Binary64) (places : Nat) : List Char :=
  match x with
  | .nan => "NaN".toList
  | .infinite negative => if negative then "-inf".toList else "inf".toList
  | .finite x =>
    let n := rounded x places
    if x.negative ∧ n ≠ 0 then '-' :: magnitude places n else magnitude places n

/-- The text without the zeros at its end. -/
def trimZeros (s : List Char) : List Char := (s.reverse.dropWhile (· == '0')).reverse

/-- A number with as many of three decimals as it needs. -/
def number (x : Binary64) : List Char :=
  let s := decimal x 3
  let whole := s.takeWhile (· != ',')
  match s.dropWhile (· != ',') with
  | [] => s
  | comma :: decimals =>
    if (trimZeros decimals).isEmpty then whole else whole ++ comma :: trimZeros decimals

/-- An amount of money. -/
def currency (x : Binary64) : List Char :=
  match decimal x 2 with
  | '-' :: amount => "-R$ ".toList ++ amount
  | amount => "R$ ".toList ++ amount

end SalesExplorer.Figure
