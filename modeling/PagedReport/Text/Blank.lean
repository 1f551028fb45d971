/-!
# White space

`isBlank` is the property White_Space.  Trimming removes blanks from the ends of a text and nothing
else.
-/

namespace PagedReport

/-- The characters with the property White_Space. -/
def isBlank (c : Char) : Bool :=
  let n := c.toNat
  n == 0x20 || (0x09 ≤ n && n ≤ 0x0D) || n == 0x85 || n == 0xA0 || n == 0x1680 ||
    (0x2000 ≤ n && n ≤ 0x200A) || n == 0x2028 || n == 0x2029 || n == 0x202F || n == 0x205F ||
    n == 0x3000

def trimLeft (cs : List Char) : List Char := cs.dropWhile isBlank

def trimRight (cs : List Char) : List Char := (cs.reverse.dropWhile isBlank).reverse

def trimBoth (cs : List Char) : List Char := trimRight (trimLeft cs)

/-- A text without the blanks at its two ends. -/
def trimmed (s : String) : String := String.ofList (trimBoth s.toList)

/-- Trimmed, with the letters `A` to `Z` in lower case: how names of settings are compared. -/
def settingName (s : String) : String :=
  String.ofList ((trimBoth s.toList).map Char.toLower)

end PagedReport
