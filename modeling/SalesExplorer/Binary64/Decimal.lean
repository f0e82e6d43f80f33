import SalesExplorer.Binary64.Basic
import SalesExplorer.Text.Digits

/-!
# Decimal numerals read as binary64

A numeral `digits · 10 ^ scale` becomes the nearest number of the format. Numerals of any length
and any scale are read exactly; the scales at which the answer no longer depends on the digits are
decided without computing the power.

`ofNumeral?` is the grammar for numbers that arrive as text: a sign, digits with an optional point
and at least one digit, an exponent; or the names of infinity and of the non-number.
-/

namespace SalesExplorer

attribute [local instance (high)] instPowNat

namespace Binary64

/-- The number nearest to `± digits · 10 ^ scale`. -/
def ofDecimal (negative : Bool) (digits : Nat) (scale : Int) : Binary64 :=
  if digits = 0 then .finite (.zero negative)
  else if 400 < scale then .infinite negative
  else if scale + digits.log2 < -1200 then .finite (.zero negative)
  else if 0 ≤ scale then nearest negative (digits * 10 ^ scale.toNat) 1
  else nearest negative digits (10 ^ (-scale).toNat)

/-- An exponent part: the mark, an optional sign, at least one digit. -/
def exponentPart? : List Char → Option Int
  | [] => some 0
  | c :: rest =>
    if c = 'e' ∨ c = 'E' then
      let (negative, ds) : Bool × List Char := match rest with
        | '-' :: ds => (true, ds)
        | '+' :: ds => (false, ds)
        | ds => (false, ds)
      if ds.isEmpty || !ds.all isDigit then none
      else some (if negative then -(ofDigits ds : Int) else ofDigits ds)
    else none

/-- A numeral without its sign: digits, an optional point and more digits, an exponent. -/
def magnitude? (negative : Bool) (s : List Char) : Option Binary64 :=
  let whole := s.takeWhile isDigit
  let rest := s.dropWhile isDigit
  let (fraction, rest) : List Char × List Char := match rest with
    | '.' :: rest => (rest.takeWhile isDigit, rest.dropWhile isDigit)
    | rest => ([], rest)
  if whole.isEmpty && fraction.isEmpty then none
  else (exponentPart? rest).map fun e =>
    ofDecimal negative (ofDigits (whole ++ fraction)) (e - fraction.length)

/-- The names of the numbers that are not finite, in any case of their letters. -/
def named? (negative : Bool) (s : List Char) : Option Binary64 :=
  let s := String.ofList (s.map Char.toLower)
  if s = "inf" ∨ s = "infinity" then some (.infinite negative)
  else if s = "nan" then some .nan
  else none

/-- The number that a text writes, if it writes one. -/
def ofNumeral? (s : List Char) : Option Binary64 :=
  let (negative, body) : Bool × List Char := match s with
    | '-' :: body => (true, body)
    | '+' :: body => (false, body)
    | body => (false, body)
  (named? negative body).or (magnitude? negative body)

end Binary64

end SalesExplorer
