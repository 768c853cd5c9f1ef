/-!
# `HeapLedger/Text/Blank.lean` — which characters are blank

Two classes are in use. `isBlank` is the White_Space property of Unicode, and is what is trimmed
off the ends of a piece of text. `isAsciiBlank` separates the fields of a status line: space, tab,
line feed, form feed and carriage return, and not the vertical tab, which `isBlank` does count.
-/

set_option autoImplicit false

namespace HeapLedger.Text

/-- The code points with the White_Space property, as closed ranges in ascending order. -/
def blankRanges : List (Nat × Nat) :=
  [(0x09, 0x0d), (0x20, 0x20), (0x85, 0x85), (0xa0, 0xa0), (0x1680, 0x1680), (0x2000, 0x200a),
    (0x2028, 0x2029), (0x202f, 0x202f), (0x205f, 0x205f), (0x3000, 0x3000)]

def isBlank (c : Char) : Bool :=
  blankRanges.any fun r => decide (r.1 ≤ c.toNat ∧ c.toNat ≤ r.2)

/-- The blanks that separate the fields of a status line. -/
def isAsciiBlank (c : Char) : Bool :=
  c = ' ' || c = '\t' || c = '\n' || c = '\x0c' || c = '\r'

def trim (text : List Char) : List Char :=
  ((text.dropWhile isBlank).reverse.dropWhile isBlank).reverse

/-- The maximal runs of characters that are not field separators. -/
def fields (text : List Char) : List (List Char) :=
  (text.splitOnP isAsciiBlank).filter fun field => !field.isEmpty

end HeapLedger.Text
