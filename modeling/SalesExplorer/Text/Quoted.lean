import SalesExplorer.Text.Printable

/-!
# Quoted text

The form in which messages show a text: between double quotes, with the quote and the backslash
escaped, the usual short escapes for tab, return, newline and NUL, and the code point in braces
for every other character that does not print by itself.
-/

namespace SalesExplorer.Text

/-- A number in lower-case hexadecimal digits. -/
def hexadecimal (n : Nat) : List Char := Nat.toDigits 16 n

/-- One character as it stands between the quotes. -/
def quoteChar (c : Char) : List Char :=
  if c = '"' then ['\\', '"']
  else if c = '\\' then ['\\', '\\']
  else if c = '\t' then ['\\', 't']
  else if c = '\r' then ['\\', 'r']
  else if c = '\n' then ['\\', 'n']
  else if c.toNat = 0 then ['\\', '0']
  else if isPrintable c then [c]
  else ['\\', 'u', '\x7b'] ++ hexadecimal c.toNat ++ ['\x7d']

end SalesExplorer.Text

/-- The text in quotes, as messages show it. -/
def String.quoted (s : String) : String :=
  ofList ('"' :: (s.toList.flatMap SalesExplorer.Text.quoteChar ++ ['"']))
