import SalesExplorer.Binary64.Decimal
import SalesExplorer.Toml.Node

/-!
# Reading TOML

`Toml.ofText?` reads a document of TOML 1.0 into a source for decoders, or finds that it is none.
Integers are signed and of 64 bits; a date-time is an object without fields; the numbers that JSON
has no form for are unreadable. Keys, arrays and inline tables may nest 79 deep.

The readers are functions on the rest of the text. `fuel` bounds the recursion by the length of the
text.
-/

namespace SalesExplorer.Toml

/-- What was read, and the rest of the text. -/
abbrev Read (α : Type) := List Char → Option (α × List Char)

/-! ## Blanks, lines and comments -/

def isTomlBlank (c : Char) : Bool := c == ' ' || c == '\t'

def skipBlanks (s : List Char) : List Char := s.dropWhile isTomlBlank

/-- A character that may stand in a line: no control character but the tab. -/
def isPlain (c : Char) : Bool := c == '\t' || (0x20 ≤ c.toNat && c.toNat != 0x7F)

/-- The text after a line break, if there is one. -/
def newline? : List Char → Option (List Char)
  | '\n' :: s => some s
  | '\r' :: '\n' :: s => some s
  | _ => none

def skipComment : List Char → List Char
  | '#' :: s => s.dropWhile isPlain
  | s => s

/-- The end of a line: blanks, a comment, and the break or the end of the text. -/
def lineEnd? (s : List Char) : Option (List Char) :=
  match skipComment (skipBlanks s) with
  | [] => some []
  | s => newline? s

/-- Blanks, line breaks and comments, as they may stand between the items of an array. -/
def skipLines (fuel : Nat) (s : List Char) : List Char :=
  match fuel with
  | 0 => s
  | fuel + 1 =>
    let s := skipBlanks s
    match newline? (skipComment s) with
    | some s => skipLines fuel s
    | none => s

/-! ## Texts -/

def hexDigit? (c : Char) : Option Nat :=
  if isDigit c then some (digitValue c)
  else if 'a' ≤ c ∧ c ≤ 'f' then some (c.toNat - 'a'.toNat + 10)
  else if 'A' ≤ c ∧ c ≤ 'F' then some (c.toNat - 'A'.toNat + 10)
  else none

/-- The character whose code point is written with the given number of digits. -/
def codePoint? (width : Nat) (s : List Char) : Option (Char × List Char) := do
  let ds ← (s.take width).mapM hexDigit?
  let n := ds.foldl (fun n d => 16 * n + d) 0
  if ds.length = width ∧ n.isValidChar then some (Char.ofNat n, s.drop width) else none

/-- The character of an escape, after its backslash. -/
def escape? : Read Char
  | 'b' :: s => some ('\x08', s)
  | 'f' :: s => some ('\x0c', s)
  | 'n' :: s => some ('\n', s)
  | 'r' :: s => some ('\r', s)
  | 't' :: s => some ('\t', s)
  | '"' :: s => some ('"', s)
  | '\\' :: s => some ('\\', s)
  | 'u' :: s => codePoint? 4 s
  | 'U' :: s => codePoint? 8 s
  | _ => none

/-- A text on one line, after its opening quote. -/
def basic? (fuel : Nat) (acc : List Char) : Read String := fun s =>
  match fuel with
  | 0 => none
  | fuel + 1 =>
    match s with
    | '"' :: s => some (String.ofList acc.reverse, s)
    | '\\' :: s => do
      let (c, s) ← escape? s
      basic? fuel (c :: acc) s
    | c :: s => if isPlain c then basic? fuel (c :: acc) s else none
    | [] => none

/-- A literal text on one line, after its opening quote. -/
def literal? (s : List Char) : Option (String × List Char) :=
  let body := s.takeWhile fun c => isPlain c && c != '\''
  match s.drop body.length with
  | '\'' :: s => some (String.ofList body, s)
  | _ => none

/-- A text of several lines, after its opening quotes. `quote` closes it when it stands three times;
up to two more of them belong to the text. A literal text has no escapes. -/
def lines? (fuel : Nat) (quote : Char) (acc : List Char) : Read String := fun s =>
  match fuel with
  | 0 => none
  | fuel + 1 =>
    let quotes := (s.takeWhile (· == quote)).length
    if quotes = 0 then
      match newline? s, s with
      | some s, _ => lines? fuel quote ('\n' :: acc) s
      | none, '\\' :: s =>
        if quote = '\'' then lines? fuel quote ('\\' :: acc) s
        else match newline? (skipBlanks s) with
          | some s => lines? fuel quote acc (skipBreaks s.length s)
          | none => do
            let (c, s) ← escape? s
            lines? fuel quote (c :: acc) s
      | none, c :: s => if isPlain c then lines? fuel quote (c :: acc) s else none
      | none, [] => none
    else if quotes < 3 then
      lines? fuel quote (List.replicate quotes quote ++ acc) (s.drop quotes)
    else if quotes ≤ 5 then
      some (String.ofList (List.replicate (quotes - 3) quote ++ acc).reverse, s.drop quotes)
    else none
where
  /-- Blanks and line breaks after a backslash that ends a line. -/
  skipBreaks (fuel : Nat) (s : List Char) : List Char :=
    match fuel with
    | 0 => s
    | fuel + 1 =>
      let s := skipBlanks s
      match newline? s with
      | some s => skipBreaks fuel s
      | none => s

/-- A text in any of the four forms. -/
def text? (s : List Char) : Option (String × List Char) :=
  match s with
  | '"' :: '"' :: '"' :: s => lines? (s.length + 1) '"' [] ((newline? s).getD s)
  | '\'' :: '\'' :: '\'' :: s => lines? (s.length + 1) '\'' [] ((newline? s).getD s)
  | '"' :: s => basic? (s.length + 1) [] s
  | '\'' :: s => literal? s
  | _ => none

/-! ## Keys -/

def isBareKeyChar (c : Char) : Bool := c.isAlphanum || c == '_' || c == '-'

def simpleKey? (s : List Char) : Option (String × List Char) :=
  match s with
  | '"' :: s => basic? (s.length + 1) [] s
  | '\'' :: s => literal? s
  | s =>
    let name := s.takeWhile isBareKeyChar
    if name.isEmpty then none else some (String.ofList name, s.drop name.length)

/-- The nesting that is refused. -/
def maxDepth : Nat := 80

/-- Keys with dots between them, blanks around each. -/
def key? (fuel : Nat) : Read (List String) := fun s =>
  match fuel with
  | 0 => none
  | fuel + 1 => do
    let (k, s) ← simpleKey? (skipBlanks s)
    match skipBlanks s with
    | '.' :: s => do
      let (ks, s) ← key? fuel s
      return (k :: ks, s)
    | s => return ([k], s)

def path? (s : List Char) : Option (List String × List Char) := do
  let (ks, s) ← key? (s.length + 1) s
  if ks.length < maxDepth then return (ks, s) else none

/-! ## Date-times -/

/-- A number with exactly the given count of digits, within bounds. -/
def fixedWidth? (width low high : Nat) : Read Nat := fun s =>
  let ds := s.take width
  let n := ofDigits ds
  if ds.length = width ∧ ds.all isDigit ∧ low ≤ n ∧ n ≤ high then some (n, s.drop width) else none

def expect (c : Char) : List Char → Option (List Char)
  | d :: s => if c = d then some s else none
  | [] => none

def date? (s : List Char) : Option (List Char) := do
  let (y, s) ← fixedWidth? 4 0 9999 s
  let (m, s) ← fixedWidth? 2 1 12 (← expect '-' s)
  let (d, s) ← fixedWidth? 2 1 31 (← expect '-' s)
  let isLeap := y % 4 = 0 ∧ (y % 100 ≠ 0 ∨ y % 400 = 0)
  let last := match m with
    | 2 => if isLeap then 29 else 28
    | 4 | 6 | 9 | 11 => 30
    | _ => 31
  if d ≤ last then some s else none

def time? (s : List Char) : Option (List Char) := do
  let (_, s) ← fixedWidth? 2 0 23 s
  let (_, s) ← fixedWidth? 2 0 59 (← expect ':' s)
  let (_, s) ← fixedWidth? 2 0 60 (← expect ':' s)
  match s with
  | '.' :: c :: s => if isDigit c then some (s.dropWhile isDigit) else none
  | '.' :: [] => none
  | s => some s

/-- An optional offset from UTC. -/
def offset? (s : List Char) : Option (List Char) :=
  match s with
  | [] => some []
  | c :: rest =>
    if c = 'Z' ∨ c = 'z' then some rest
    else if c = '+' ∨ c = '-' then do
      let (_, s) ← fixedWidth? 2 0 23 rest
      let (_, s) ← fixedWidth? 2 0 59 (← expect ':' s)
      some s
    else some s

/-- A date, a time or both; the offset stands only after both. -/
def dateTime? (s : List Char) : Option (List Char) :=
  match date? s with
  | none => time? s
  | some s =>
    match s with
    | c :: rest =>
      if c = 'T' ∨ c = 't' ∨ c = ' ' then
        match time? rest with
        | some rest => offset? rest
        | none => some s
      else some s
    | [] => some []

/-! ## Numbers -/

/-- Digits with single underscores between them. -/
def digitRun (isDigitOf : Char → Bool) : List Char → Option (List Char × List Char)
  | [] => none
  | c :: s => if isDigitOf c then some (more [c] s) else none
where
  more (acc : List Char) : List Char → List Char × List Char
    | '_' :: c :: s =>
      if isDigitOf c then more (c :: acc) s else (acc.reverse, '_' :: c :: s)
    | c :: s => if isDigitOf c then more (c :: acc) s else (acc.reverse, c :: s)
    | [] => (acc.reverse, [])

def sign (s : List Char) : Bool × List Char :=
  match s with
  | '-' :: s => (true, s)
  | '+' :: s => (false, s)
  | s => (false, s)

/-- The digits of a decimal integer: no zero in front of others. -/
def decimal? (s : List Char) : Option (List Char × List Char) :=
  match s with
  | '0' :: s => some (['0'], s)
  | s => digitRun isDigit s

/-- An integer that fits 64 bits with a sign. -/
def signed64? (negative : Bool) (n : Nat) : Option Source :=
  if negative then if n ≤ 0x8000000000000000 then some (.int (-(n : Int))) else none
  else if n < 0x8000000000000000 then some (.int n) else none

def inBase? (base : Nat) (s : List Char) : Option (Source × List Char) := do
  let isDigitOf := fun c => (hexDigit? c).any (· < base)
  let (ds, s) ← digitRun isDigitOf s
  let n := ds.foldl (fun n c => base * n + (hexDigit? c).getD 0) 0
  return (← signed64? false n, s)

def integer? (s : List Char) : Option (Source × List Char) :=
  match s with
  | '0' :: 'x' :: s => inBase? 16 s
  | '0' :: 'o' :: s => inBase? 8 s
  | '0' :: 'b' :: s => inBase? 2 s
  | s => do
    let (negative, s) := sign s
    let (ds, s) ← decimal? s
    return (← signed64? negative (ofDigits ds), s)

def ofFloat (x : Binary64) : Source := (x.finite?.map Source.float).getD .unreadable

/-- An exponent, after its mark. -/
def exponent? (s : List Char) : Option (Int × List Char) := do
  let (negative, s) := sign s
  let (ds, s) ← digitRun isDigit s
  return (if negative then -(ofDigits ds : Int) else ofDigits ds, s)

/-- A number with a fraction, an exponent or both; it must not be too large. -/
def fractional? (s : List Char) : Option (Source × List Char) := do
  let (negative, s) := sign s
  let (whole, s) ← decimal? s
  let (fraction, s) ← match s with
    | '.' :: s => (digitRun isDigit s).map fun (ds, s) => (some ds, s)
    | s => some (none, s)
  let (e, s) ← match s with
    | c :: rest =>
      if c = 'e' ∨ c = 'E' then (exponent? rest).map fun (e, s) => (some e, s) else some (none, s)
    | [] => some (none, [])
  if fraction.isNone && e.isNone then none
  else
    let ds := fraction.getD []
    let x := Binary64.ofDecimal negative (ofDigits (whole ++ ds)) (e.getD 0 - ds.length)
    if x = .infinite false then none else return (ofFloat x, s)

def special? (s : List Char) : Option (Source × List Char) :=
  match (sign s).2 with
  | 'i' :: 'n' :: 'f' :: s => some (.unreadable, s)
  | 'n' :: 'a' :: 'n' :: s => some (.unreadable, s)
  | _ => none

/-- A date-time as a source: an object without any field. -/
def dateTimeSource : Source := .obj []

/-- A date-time or a number. -/
def number? (s : List Char) : Option (Source × List Char) :=
  match dateTime? s with
  | some s => some (dateTimeSource, s)
  | none => (fractional? s).or ((special? s).or (integer? s))

/-! ## Values -/

mutual

/-- A value inside `depth` arrays and inline tables. -/
def value? (fuel depth : Nat) : Read Source := fun s =>
  match fuel with
  | 0 => none
  | fuel + 1 =>
    match s with
    | '[' :: s =>
      if depth + 1 < maxDepth then do
        let (vs, s) ← items? fuel (depth + 1) s
        return (.arr vs, s)
      else none
    | '\x7b' :: s =>
      if depth + 1 < maxDepth then
        match skipBlanks s with
        | '\x7d' :: s => some (.obj [], s)
        | s => do
          let (n, s) ← inline? fuel (depth + 1) .fresh s
          return (n.toSource, s)
      else none
    | 't' :: 'r' :: 'u' :: 'e' :: s => some (.bool true, s)
    | 'f' :: 'a' :: 'l' :: 's' :: 'e' :: s => some (.bool false, s)
    | c :: _ =>
      if c = '"' ∨ c = '\'' then (text? s).map fun (t, s) => (.str t, s) else number? s
    | [] => none

/-- The items of an array up to its bracket; a comma may follow the last one. -/
def items? (fuel depth : Nat) : Read (List Source) := fun s =>
  match fuel with
  | 0 => none
  | fuel + 1 =>
    match skipLines s.length s with
    | ']' :: s => some ([], s)
    | s => do
      let (v, s) ← value? fuel depth s
      match skipLines s.length s with
      | ',' :: s => do
        let (vs, s) ← items? fuel depth s
        return (v :: vs, s)
      | ']' :: s => return ([v], s)
      | _ => none

/-- The key-value pairs of an inline table up to its brace; no comma follows the last one. -/
def inline? (fuel depth : Nat) (n : Node) : Read Node := fun s =>
  match fuel with
  | 0 => none
  | fuel + 1 => do
    let (path, s) ← path? s
    let s ← expect '=' s
    let (v, s) ← value? fuel depth (skipBlanks s)
    let n ← n.insertPath path.dropLast (path.getLast?.getD "") v
    match skipBlanks s with
    | ',' :: s => inline? fuel depth n s
    | '\x7d' :: s => return (n, s)
    | _ => none

end

/-! ## Lines -/

/-- A header after its first bracket. -/
def header? (d : Document) (s : List Char) : Option (Document × List Char) :=
  match s with
  | '[' :: s => do
    let (path, s) ← path? s
    let s ← expect ']' (← expect ']' s)
    return (← d.openItem path, ← lineEnd? s)
  | s => do
    let (path, s) ← path? s
    let s ← expect ']' s
    return (← d.openTable path, ← lineEnd? s)

def pair? (d : Document) (s : List Char) : Option (Document × List Char) := do
  let (path, s) ← path? s
  let s ← expect '=' s
  let (v, s) ← value? (2 * s.length + 2) 0 (skipBlanks s)
  let s ← lineEnd? s
  return (← d.insert path v, s)

def document? (fuel : Nat) (d : Document) (s : List Char) : Option Document :=
  match fuel with
  | 0 => none
  | fuel + 1 =>
    match skipBlanks s with
    | [] => some d
    | '[' :: s => do
      let (d, s) ← header? d s
      document? fuel d s
    | c :: rest =>
      let s := c :: rest
      match lineEnd? s with
      | some s => document? fuel d s
      | none => do
        let (d, s) ← pair? d s
        document? fuel d s

/-- The source that a document writes; a byte order mark may stand before it. -/
def ofText? (text : String) : Option Source :=
  let s := match text.toList with
    | '\uFEFF' :: s => s
    | s => s
  (document? (s.length + 1) {} s).map (·.root.toSource)

end SalesExplorer.Toml
