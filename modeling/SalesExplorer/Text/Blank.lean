/-!
# Blank characters

White space is Unicode's `White_Space` property. On it rest trimming, the words of a text, and
the pieces of a comma-separated list. All three are functions on `List Char`, with forms on
`String` for the types that store text.
-/

namespace SalesExplorer.Text

/-- The characters with the property `White_Space`. -/
def isBlank (c : Char) : Bool :=
  let n := c.toNat
  (0x09 ≤ n && n ≤ 0x0D) || n == 0x20 || n == 0x85 || n == 0xA0 || n == 0x1680 ||
    (0x2000 ≤ n && n ≤ 0x200A) || n == 0x2028 || n == 0x2029 || n == 0x202F || n == 0x205F ||
    n == 0x3000

/-! ## Trimming -/

def trimLeft (s : List Char) : List Char := s.dropWhile isBlank

def trimRight (s : List Char) : List Char := (s.reverse.dropWhile isBlank).reverse

/-- The text without the blanks at its two ends. -/
def trim (s : List Char) : List Char := trimRight (trimLeft s)

/-! ## Words and pieces -/

/-- The maximal runs of characters that are not blank, in order. -/
def words (s : List Char) : List (List Char) :=
  (s.splitOnP isBlank).filter (!·.isEmpty)

/-- The trimmed pieces between commas, blank ones left out. -/
def pieces (s : List Char) : List (List Char) :=
  ((s.splitOn ',').map trim).filter (!·.isEmpty)

end SalesExplorer.Text

namespace String

/-- The text without the blanks at its two ends. -/
def trimBlank (s : String) : String := ofList (SalesExplorer.Text.trim s.toList)

/-- Nothing is left of the text after trimming. -/
def isBlankText (s : String) : Bool := (SalesExplorer.Text.trim s.toList).isEmpty

end String
