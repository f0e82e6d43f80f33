import SalesExplorer.Binary64.Decimal
import SalesExplorer.Json.Source

/-!
# JSON text read into a source

`Source.ofText` reads a text from left to right. Where the text stops being JSON, each array and object
that is still open ends in an unreadable part; all that stands before is in the source as well. The
second part of the answer says that nothing but white space follows the value.

Arrays and objects may nest 127 deep; a deeper one is unreadable, and can still be stepped over.

The reader calls itself at most twice per character, and `fuel` is computed from the length of the
text.
-/

namespace SalesExplorer.Json.Reader

/-- The white space of JSON. -/
def isSpace (c : Char) : Bool := c == ' ' || c == '\n' || c == '\t' || c == '\r'

def skip (s : List Char) : List Char := s.dropWhile isSpace

/-! ## Numbers -/

/-- Digits of an exponent, after its mark. -/
def exponent? (s : List Char) : Option (Int × List Char) :=
  let (negative, s) : Bool × List Char := match s with
    | '-' :: s => (true, s)
    | '+' :: s => (false, s)
    | s => (false, s)
  let ds := s.takeWhile isDigit
  if ds.isEmpty then none
  else some (if negative then -(ofDigits ds : Int) else ofDigits ds, s.dropWhile isDigit)

/-- The value of an integer literal: an integer in the 64-bit ranges, else a binary64 number. -/
def integer (negative : Bool) (n : Nat) : Source :=
  if negative then
    if n ≠ 0 ∧ n ≤ 0x8000000000000000 then .int (-(n : Int)) else ofBinary64 (.ofDecimal true n 0)
  else if n < UInt64.size then .int n else ofBinary64 (.ofDecimal false n 0)
where
  ofBinary64 (x : Binary64) : Source := (x.finite?.map Source.float).getD .unreadable

/-- A number and the text after it. -/
def number? (s : List Char) : Option (Source × List Char) :=
  let (negative, s) : Bool × List Char := match s with
    | '-' :: s => (true, s)
    | s => (false, s)
  let whole := s.takeWhile isDigit
  let rest := s.dropWhile isDigit
  if whole.isEmpty || (whole.head? == some '0' && whole.length != 1) then none
  else do
    let (fraction, rest) ← match rest with
      | '.' :: rest =>
        let ds := rest.takeWhile isDigit
        if ds.isEmpty then none else some (some ds, rest.dropWhile isDigit)
      | rest => some (none, rest)
    let (e, rest) ← match rest with
      | c :: r => if c = 'e' ∨ c = 'E' then (exponent? r).map fun p => (some p.1, p.2)
                  else some (none, rest)
      | [] => some (none, rest)
    match fraction, e with
    | none, none => return (integer negative (ofDigits whole), rest)
    | _, _ =>
      let ds := fraction.getD []
      let x := Binary64.ofDecimal negative (ofDigits (whole ++ ds)) (e.getD 0 - ds.length)
      return ((x.finite?.map Source.float).getD .unreadable, rest)

/-! ## Strings -/

def hexValue? (c : Char) : Option Nat :=
  if isDigit c then some (digitValue c)
  else if 'a' ≤ c ∧ c ≤ 'f' then some (c.toNat - 'a'.toNat + 10)
  else if 'A' ≤ c ∧ c ≤ 'F' then some (c.toNat - 'A'.toNat + 10)
  else none

/-- The number that four hexadecimal digits write. -/
def unit? (a b c d : Char) : Option Nat := do
  return (((← hexValue? a) * 16 + (← hexValue? b)) * 16 + (← hexValue? c)) * 16 + (← hexValue? d)

/-- The character of a one-letter escape. -/
def escaped? (c : Char) : Option Char :=
  if c = '"' ∨ c = '\\' ∨ c = '/' then some c
  else if c = 'b' then some '\x08'
  else if c = 'f' then some '\x0c'
  else if c = 'n' then some '\n'
  else if c = 'r' then some '\r'
  else if c = 't' then some '\t'
  else none

def isHigh (u : Nat) : Bool := 0xD800 ≤ u && u < 0xDC00
def isLow (u : Nat) : Bool := 0xDC00 ≤ u && u < 0xE000

/-- The text being read: its characters in reverse, or `none` once part of it has no meaning. -/
abbrev Text := Option (List Char)

def Text.push (t : Text) (high : Option Nat) (c : Char) : Text :=
  if high.isSome then none else t.map (c :: ·)

/-- Add the code unit of an escape to a text that may end in half a pair. -/
def Text.pushUnit (t : Text) (high : Option Nat) (u : Nat) : Text × Option Nat :=
  match high with
  | some h =>
    if isLow u then
      (t.map (Char.ofNat (0x10000 + (h - 0xD800) * 0x400 + (u - 0xDC00)) :: ·), none)
    else (none, none)
  | none =>
    if isHigh u then (t, some u)
    else if isLow u then (none, none)
    else (t.map (Char.ofNat u :: ·), none)

/-- The rest of a string after its opening quote, and the text after its closing one. -/
def string? : List Char → Text → Option Nat → Option (Text × List Char)
  | '"' :: rest, t, high => some (if high.isSome then none else t.map List.reverse, rest)
  | '\\' :: 'u' :: a :: b :: c :: d :: rest, t, high =>
    match unit? a b c d with
    | none => none
    | some u =>
      let (t, high) := t.pushUnit high u
      string? rest t high
  | '\\' :: c :: rest, t, high =>
    match escaped? c with
    | none => none
    | some c => string? rest (t.push high c) none
  | c :: rest, t, high =>
    if c.toNat < 0x20 ∨ c = '\\' then none else string? rest (t.push high c) none
  | [], _, _ => none

def text? (s : List Char) : Option (Option String × List Char) :=
  (string? s (some []) none).map fun (t, rest) => (t.map String.ofList, rest)

/-! ## Values -/

/-- The number of arrays and objects that may be open at once. -/
def maxDepth : Nat := 127

def limited (depth : Nat) (v : Source) : Source :=
  if depth ≤ maxDepth then v else .unreadable

/-- What follows the last item of an array that is not closed. -/
def brokenItems : List Source := [.unreadable]

/-- What follows the last member of an object that is not closed. -/
def brokenMembers : List (Option String × Source) := [(none, .unreadable)]

mutual

/-- A value at the given depth, and the text after it unless it breaks off. -/
def value (fuel depth : Nat) (s : List Char) : Source × Option (List Char) :=
  match fuel with
  | 0 => (.unreadable, none)
  | fuel + 1 =>
    match skip s with
    | 'n' :: 'u' :: 'l' :: 'l' :: rest => (.null, some rest)
    | 't' :: 'r' :: 'u' :: 'e' :: rest => (.bool true, some rest)
    | 'f' :: 'a' :: 'l' :: 's' :: 'e' :: rest => (.bool false, some rest)
    | '"' :: rest =>
      match text? rest with
      | some (t, rest) => ((t.map Source.str).getD .unreadable, some rest)
      | none => (.unreadable, none)
    | '[' :: rest =>
      let (vs, rest) := items fuel (depth + 1) true rest
      (limited (depth + 1) (.arr vs), rest)
    | '\x7b' :: rest =>
      let (ms, rest) := members fuel (depth + 1) true rest
      (limited (depth + 1) (.obj ms), rest)
    | s =>
      match number? s with
      | some (v, rest) => (v, some rest)
      | none => (.unreadable, none)

/-- The items of an array up to its bracket. -/
def items (fuel depth : Nat) (first : Bool) (s : List Char) :
    List Source × Option (List Char) :=
  match fuel with
  | 0 => (brokenItems, none)
  | fuel + 1 =>
    match first, skip s with
    | true, ']' :: rest => ([], some rest)
    | _, s =>
      let (v, rest) := value fuel depth s
      match rest.map skip with
      | some (',' :: rest) =>
        let (vs, rest) := items fuel depth false rest
        (v :: vs, rest)
      | some (']' :: rest) => ([v], some rest)
      | _ => (v :: brokenItems, none)

/-- The members of an object up to its brace. -/
def members (fuel depth : Nat) (first : Bool) (s : List Char) :
    List (Option String × Source) × Option (List Char) :=
  match fuel with
  | 0 => (brokenMembers, none)
  | fuel + 1 =>
    match first, skip s with
    | true, '\x7d' :: rest => ([], some rest)
    | _, '"' :: rest =>
      match text? rest with
      | none => (brokenMembers, none)
      | some (k, rest) =>
        match skip rest with
        | ':' :: rest =>
          let (v, rest) := value fuel depth rest
          match rest.map skip with
          | some (',' :: rest) =>
            let (ms, rest) := members fuel depth false rest
            ((k, v) :: ms, rest)
          | some ('\x7d' :: rest) => ([(k, v)], some rest)
          | _ => ((k, v) :: brokenMembers, none)
        | _ => ((k, .unreadable) :: brokenMembers, none)
    | _, _ => (brokenMembers, none)

end

end SalesExplorer.Json.Reader

namespace SalesExplorer

/-- The value at the start of a text, and whether it is all there is. -/
def Source.ofText (s : String) : Source × Bool :=
  let cs := s.toList
  let (v, rest) := Json.Reader.value (2 * cs.length + 2) 0 cs
  (v, rest.any fun rest => (Json.Reader.skip rest).isEmpty)

/-- The one value that a text holds. -/
def Json.ofText? (s : String) : Option Json :=
  match Source.ofText s with
  | (v, true) => v.whole?
  | (_, false) => none

end SalesExplorer
